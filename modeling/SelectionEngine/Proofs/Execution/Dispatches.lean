import SelectionEngine.Proofs.Execution.ResolutionPaths
import SelectionEngine.Proofs.Execution.Responses
import SelectionEngine.Schema.Registry

namespace SelectionEngine

theorem filter_eq_singleton_of_nodup {α κ : Type} [DecidableEq κ] {key : α → κ} {as : List α} {a : α}
    (distinct : (as.map key).Nodup) (member : a ∈ as) : as.filter (fun other => key other = key a) = [a] := by
  induction as with
  | nil => cases member
  | cons first rest ih =>
    obtain ⟨absent, others⟩ := List.nodup_cons.mp distinct
    rcases List.mem_cons.mp member with rfl | later
    · have none : rest.filter (fun other => key other = key a) = [] := by
        refine List.filter_eq_nil_iff.mpr fun other listed same => absent ?_
        exact List.mem_map.mpr ⟨other, listed, of_decide_eq_true same⟩
      rw [List.filter_cons_of_pos (by simp), none]
    · have other : key first ≠ key a := fun same => absent (List.mem_map.mpr ⟨a, later, same.symm⟩)
      rw [List.filter_cons_of_neg (by simpa using other)]
      exact ih others later

variable {ρ : Type}

/-- The objects on which fields are selected in a value of a type at a path:
the value itself, or those in the items of a list. Each comes with its object
type and its own path. -/
inductive ObjectsIn (schema : Schema ρ) : TypeRef → Value → Path → ObjectType ρ → Value → Path → Prop
  | here {reference name entries path type} : TypeRef.nullable reference = .named name →
      schema.concreteType? name (.object entries) path = .ok (some type) →
      ObjectsIn schema reference (.object entries) path type (.object entries) path
  | item {reference inner items path type object place item} {n : Nat} :
      TypeRef.nullable reference = .list inner → items[n]? = some item →
      ObjectsIn schema inner item (path.join (.index n)) type object place →
      ObjectsIn schema reference (.list items) path type object place

/-- The first field of the group is one of the object type and is not the name
of the type, and these are its arguments. -/
structure FieldGroup.Calls (group : FieldGroup) (schema : Schema ρ) (variableValues : Object)
    (type : ObjectType ρ) (field : FieldDef ρ) (arguments : Object) : Prop where
  named : group.lead.call.name ≠ typenameField
  declared : type.field? group.lead.call.name = some field
  coerced : schema.coerceArguments field.arguments group.lead.call.arguments variableValues
    group.lead.call.name = .ok arguments

section

variable (schema : Schema ρ) (request : Request) (root : Value) (log : List Resolution)

/-- The objects on which a run executes selections, where fields were resolved
as the log says: the root, and each object in a value that a field of such an
object was resolved to. -/
inductive Schema.Executed : ObjectType ρ → List Selection → Value → Path → Prop
  | root {type} : schema.rootType? request.operation = some type →
      Executed type request.selectionSet root []
  | inside {type selections parent path group field arguments value object entries place} :
      Executed type selections parent path → group ∈ schema.fieldGroups type selections →
      group.Calls schema request.variableValues type field arguments →
      ⟨group.info type field parent path arguments, .ok value⟩ ∈ log →
      ObjectsIn schema field.type value (path.join (.key group.key)) object entries place →
      Executed object group.selections entries place

/-- The field of a group of an object on which selections are executed is called
with this information. -/
def Schema.Called (info : ResolveInfo) : Prop :=
  ∃ type selections parent path group field arguments,
    schema.Executed request root log type selections parent path ∧
      group ∈ schema.fieldGroups type selections ∧
      group.Calls schema request.variableValues type field arguments ∧
      info = group.info type field parent path arguments

/-- Where the subject stands, only objects come up on which the
run executes selections. -/
def Subject.Reached (path : Path) : Subject ρ → Prop
  | .object type selections parent => schema.Executed request root log type selections parent path
  | .group type parent fields => ∃ selections,
      schema.Executed request root log type selections parent path ∧ fields ∈ schema.fieldGroups type selections
  | .place site reference value | .content site reference value => ∀ type object place,
      ObjectsIn schema reference value path type object place →
        schema.Executed request root log type site.selections object place

end

variable {schema : Schema ρ}

theorem ObjectsIn.of_nullable {reference other : TypeRef} {value object : Value} {path place : Path}
    {type : ObjectType ρ} (inside : ObjectsIn schema reference value path type object place)
    (same : other.nullable = reference.nullable) : ObjectsIn schema other value path type object place := by
  cases inside with
  | here named found => exact .here (same.trans named) found
  | item list atItem below => exact .item (same.trans list) atItem below

namespace Account

variable {ι : Type} {inputs : List ι} {accounts : List Account} (length : accounts.length = inputs.length)

include length

/-- Where there is an account of each input, what it lists is
listed for the whole. -/
theorem exists_of_input {n : Nat} {input : ι} (atInput : inputs[n]? = some input) :
    ∃ account, accounts[n]? = some account ∧ account.resolutions ⊆ accounts.flatMap resolutions := by
  have inRange : n < accounts.length := length ▸ (List.getElem?_eq_some_iff.mp atInput).1
  refine ⟨accounts[n], List.getElem?_eq_getElem inRange, fun _ listed => ?_⟩
  exact List.mem_flatMap.mpr ⟨accounts[n], List.getElem_mem inRange, listed⟩

/-- What is listed for the whole is listed for one of the inputs. -/
theorem exists_of_resolution {resolution : Resolution} (listed : resolution ∈ accounts.flatMap resolutions) :
    ∃ (n : Nat) (input : ι) (account : Account), inputs[n]? = some input ∧ accounts[n]? = some account ∧
      resolution ∈ account.resolutions ∧ account.resolutions ⊆ accounts.flatMap resolutions := by
  obtain ⟨account, member, inside⟩ := List.mem_flatMap.mp listed
  obtain ⟨n, input, atInput, atAccount⟩ := exists_beside length member
  refine ⟨n, input, account, atInput, atAccount, inside, fun _ listed => ?_⟩
  exact List.mem_flatMap.mpr ⟨account, member, listed⟩

end Account

namespace Executes

variable {variableValues : Object} {site : FieldSite} {path place : Path} {account : Account}

/-- What a place holds is completed as content of its type without
the markers around it. -/
theorem content_nullable {reference : TypeRef} {value : Value} (present : value ≠ .null) {account : Account}
    (executes : Executes schema variableValues (.place site reference value) path account ∨
      Executes schema variableValues (.content site reference value) path account) :
    ∃ inner, Executes schema variableValues (.content site reference.nullable value) path inner ∧
      inner.resolutions = account.resolutions := by
  induction reference generalizing account with
  | nonNull inner ih =>
    have atPlace {account : Account}
        (executes : Executes schema variableValues (.place site (.nonNull inner) value) path account) :
        ∃ inside, Executes schema variableValues (.content site inner.nullable value) path inside ∧
          inside.resolutions = account.resolutions := by
      cases executes with
      | strict content =>
        obtain ⟨inside, content, same⟩ := ih (.inr content)
        exact ⟨inside, content, same⟩
      | lenient nullable => simp [TypeRef.isNonNull] at nullable
    rcases executes with executes | executes
    · exact atPlace executes
    · cases executes with
      | null => exact absurd rfl present
      | wrapped _ executes => exact atPlace executes
      | rejected rejects => cases rejects
  | _ =>
    rcases executes with executes | executes
    · cases executes with
      | lenient _ content => exact ⟨_, content, rfl⟩
    · exact ⟨_, executes, rfl⟩

/-- The objects in a value are executed where the value is completed. -/
theorem object_of_place {reference : TypeRef} {value object : Value} {type : ObjectType ρ}
    (inside : ObjectsIn schema reference value path type object place)
    (executes : Executes schema variableValues (.place site reference value) path account) :
    ∃ below, Executes schema variableValues (.object type site.selections object) place below ∧
      below.resolutions ⊆ account.resolutions := by
  induction inside generalizing account with
  | @here reference name entries path type named found =>
    have present : Value.object entries ≠ .null := by simp
    obtain ⟨inner, content, same⟩ := content_nullable present (.inl executes)
    rw [named] at content
    cases content with
    | scalar _ none => simp [found] at none
    | named own executes =>
      obtain rfl := Option.some.inj (Except.ok.inj (own.symm.trans found))
      exact ⟨inner, executes, same ▸ List.Subset.refl _⟩
    | rejected rejects =>
      cases rejects with
      | notObject _ other _ => exact absurd rfl (other entries)
      | noType _ failed => simp [found] at failed
  | @item reference inner items path type object place item n list atItem _ ih =>
    have present : Value.list items ≠ .null := by simp
    obtain ⟨whole, content, same⟩ := content_nullable present (.inl executes)
    rw [list] at content
    cases content with
    | @list _ _ _ _ accounts length each =>
      obtain ⟨part, atPart, listed⟩ := Account.exists_of_input length atItem
      obtain ⟨below, executes, kept⟩ := ih (each n item part atItem atPart)
      exact ⟨below, executes, same ▸ List.Subset.trans kept listed⟩
    | rejected rejects =>
      cases rejects with
      | notList _ other => exact absurd rfl (other items)

/-- Where the fields of an object are executed, each of its groups is. -/
theorem group_of_object {type : ObjectType ρ} {selections : List Selection} {parent : Value} {group : FieldGroup}
    (executes : Executes schema variableValues (.object type selections parent) path account)
    (member : group ∈ schema.fieldGroups type selections) :
    ∃ part, Executes schema variableValues (.group type parent group) path part ∧
      part.resolutions ⊆ account.resolutions := by
  cases executes with
  | object length each =>
    obtain ⟨n, atGroup⟩ := List.mem_iff_getElem?.mp member
    obtain ⟨part, atPart, listed⟩ := Account.exists_of_input length atGroup
    exact ⟨part, each n group part atGroup atPart, listed⟩

/-- A group that calls a field has asked it for its value, and failed
with it or completed it. -/
theorem outcome_of_calls {type : ObjectType ρ} {parent : Value} {group : FieldGroup} {field : FieldDef ρ}
    {arguments : Object} (executes : Executes schema variableValues (.group type parent group) path account)
    (calls : group.Calls schema variableValues type field arguments) :
    (∃ error : ResolverError, account = ⟨Run.fieldFailure field.type
        (Reportable.report error (some (path.join (.key group.key)))),
        [⟨group.info type field parent path arguments, .error error⟩]⟩) ∨
      ∃ value below, Executes schema variableValues
          (.place ⟨type.name, field.name, group.selections⟩ field.type value)
          (path.join (.key group.key)) below ∧
        account = ⟨below.completed,
          ⟨group.info type field parent path arguments, .ok value⟩ :: below.resolutions⟩ := by
  cases executes with
  | typename named => exact absurd named calls.named
  | badArguments _ declared failed =>
    obtain rfl := Option.some.inj (declared.symm.trans calls.declared)
    simp [calls.coerced] at failed
  | unresolved _ declared coerced =>
    obtain rfl := Option.some.inj (declared.symm.trans calls.declared)
    obtain rfl := Except.ok.inj (coerced.symm.trans calls.coerced)
    exact .inl ⟨_, rfl⟩
  | resolved _ declared coerced place =>
    obtain rfl := Option.some.inj (declared.symm.trans calls.declared)
    obtain rfl := Except.ok.inj (coerced.symm.trans calls.coerced)
    exact .inr ⟨_, _, place, rfl⟩

/-- The field that a group calls is the first one that it asks for a value. If
that fails, the error is reported. -/
theorem resolutions_of_calls {type : ObjectType ρ} {parent : Value} {group : FieldGroup} {field : FieldDef ρ}
    {arguments : Object} (executes : Executes schema variableValues (.group type parent group) path account)
    (calls : group.Calls schema variableValues type field arguments) :
    ∃ outcome rest, account.resolutions = ⟨group.info type field parent path arguments, outcome⟩ :: rest ∧
      ∀ error, outcome = .error error →
        Reportable.report error (some (path.join (.key group.key))) ∈ account.completed.errors := by
  rcases executes.outcome_of_calls calls with ⟨error, rfl⟩ | ⟨value, below, _, rfl⟩
  · refine ⟨_, [], rfl, ?_⟩
    rintro _ ⟨⟩
    simp only [Run.fieldFailure]
    split <;> exact .head _
  · exact ⟨_, _, rfl, nofun⟩

/-- A group that calls a field has asked it for its value, and went on
with what it was given. -/
theorem call_of_group {type : ObjectType ρ} {parent : Value} {group : FieldGroup} {field : FieldDef ρ}
    {arguments : Object} (executes : Executes schema variableValues (.group type parent group) path account)
    (calls : group.Calls schema variableValues type field arguments) :
    ∃ outcome, ⟨group.info type field parent path arguments, outcome⟩ ∈ account.resolutions ∧
      ∀ value, outcome = .ok value → ∃ below,
        Executes schema variableValues (.place ⟨type.name, field.name, group.selections⟩ field.type value)
          (path.join (.key group.key)) below ∧ below.resolutions ⊆ account.resolutions := by
  rcases executes.outcome_of_calls calls with ⟨error, rfl⟩ | ⟨value, below, place, rfl⟩
  · exact ⟨_, .head _, nofun⟩
  · refine ⟨_, .head _, fun other same => ?_⟩
    obtain rfl := Except.ok.inj same
    exact ⟨below, place, List.subset_cons_self _ _⟩

end Executes

variable {request : Request} {root : Value} {log : List Resolution}

section

variable (distinct : (log.map Resolution.path).Nodup)
  (started : ∀ type, schema.rootType? request.operation = some type → ∃ account,
    Executes schema request.variableValues (.object type request.selectionSet root) [] account ∧
      log.Perm account.resolutions)

include distinct started

/-- There is an account of every object on which selections are executed. -/
theorem Schema.Executed.account {type : ObjectType ρ} {selections : List Selection} {parent : Value} {path : Path}
    (executed : schema.Executed request root log type selections parent path) :
    ∃ account, Executes schema request.variableValues (.object type selections parent) path account ∧
      account.resolutions ⊆ log := by
  induction executed with
  | root found =>
    obtain ⟨account, executes, log⟩ := started _ found
    exact ⟨account, executes, log.symm.subset⟩
  | @inside type selections parent path group field arguments value object entries place _ member calls asked
      inside ih =>
    obtain ⟨whole, executes, known⟩ := ih
    obtain ⟨part, executes, listed⟩ := executes.group_of_object member
    obtain ⟨outcome, called, continues⟩ := executes.call_of_group calls
    -- paths are distinct, so the log has one outcome for the field
    have same : outcome = .ok value := by
      have once := find?_eq_some_of_nodup distinct asked
      rw [show Resolution.path ⟨group.info type field parent path arguments, .ok value⟩ =
        Resolution.path ⟨group.info type field parent path arguments, outcome⟩ from rfl,
        find?_eq_some_of_nodup distinct (known (listed called))] at once
      exact congrArg Resolution.outcome (Option.some.inj once)
    obtain ⟨content, executes, kept⟩ := continues value same
    obtain ⟨below, executes, fewer⟩ := executes.object_of_place inside
    exact ⟨below, executes, fun _ asked => known (listed (kept (fewer asked)))⟩

theorem Schema.Executed.asked {type : ObjectType ρ} {selections : List Selection} {parent : Value} {path : Path}
    (executed : schema.Executed request root log type selections parent path) {group : FieldGroup}
    (member : group ∈ schema.fieldGroups type selections) {field : FieldDef ρ} {arguments : Object}
    (calls : group.Calls schema request.variableValues type field arguments) :
    ∃ outcome, ⟨group.info type field parent path arguments, outcome⟩ ∈ log := by
  obtain ⟨whole, executes, known⟩ := executed.account distinct started
  obtain ⟨part, executes, listed⟩ := executes.group_of_object member
  obtain ⟨outcome, called, _⟩ := executes.call_of_group calls
  exact ⟨outcome, known (listed called)⟩

end

/-- Below a subject only fields are asked for their values that are called
on objects of the run. -/
theorem Executes.called {subject : Subject ρ} {path : Path} {account : Account}
    (executes : Executes schema request.variableValues subject path account) (known : account.resolutions ⊆ log)
    (reached : subject.Reached schema request root log path) :
    ∀ resolution ∈ account.resolutions, schema.Called request root log resolution.info := by
  induction executes with
  | @object type selections parent path accounts length _ ih =>
    intro resolution member
    obtain ⟨n, group, part, atGroup, atPart, inside, listed⟩ := Account.exists_of_resolution length member
    have grouped : group ∈ schema.fieldGroups type selections := List.mem_of_getElem? atGroup
    have within : part.resolutions ⊆ log := List.Subset.trans listed known
    exact ih n group part atGroup atPart within ⟨selections, reached, grouped⟩ resolution inside
  | unresolved named declared coerced =>
    obtain ⟨selections, executed, member⟩ := reached
    exact List.forall_mem_singleton.mpr
      ⟨_, selections, _, _, _, _, _, executed, member, ⟨named, declared, coerced⟩, rfl⟩
  | @resolved type parent group path field arguments value account named declared coerced _ ih =>
    obtain ⟨selections, executed, member⟩ := reached
    have calls : group.Calls schema request.variableValues type field arguments := ⟨named, declared, coerced⟩
    have asked : ⟨group.info type field parent path arguments, .ok value⟩ ∈ log := known (.head _)
    have below := ih (fun _ inside => known (.tail _ inside))
      fun object entries place inside => .inside executed member calls asked inside
    exact List.forall_mem_cons.mpr
      ⟨⟨type, selections, parent, path, group, field, arguments, executed, member, calls, rfl⟩, below⟩
  | strict _ ih => exact ih known fun type object place inside => reached type object place (inside.of_nullable rfl)
  | lenient _ _ ih => exact ih known reached
  | wrapped _ _ ih => exact ih known reached
  | @list site inner path items accounts length _ ih =>
    intro resolution member
    obtain ⟨n, item, part, atItem, atPart, inside, listed⟩ := Account.exists_of_resolution length member
    have below : ∀ type object place, ObjectsIn schema inner item (path.join (.index n)) type object place →
        schema.Executed request root log type site.selections object place :=
      fun type object place inItem => reached type object place (.item rfl atItem inItem)
    exact ih n item part atItem atPart (List.Subset.trans listed known) below resolution inside
  | named found _ ih => exact ih known (reached _ _ _ (.here rfl found))
  | typename | badArguments | null | scalar | leaf | rejected => simp

/-- Fields are asked for their values once each: on every object on which
the run executes selections those of all groups whose arguments can be
coerced, and no others. -/
structure DispatchedOnce (schema : Schema ρ) (request : Request) (root : Value) (log : List Resolution) : Prop where
  distinct : (log.map Resolution.path).Nodup
  each {type : ObjectType ρ} {selections : List Selection} {parent : Value} {path : Path} :
    schema.Executed request root log type selections parent path →
    ∀ group ∈ schema.fieldGroups type selections, group.lead.call.name ≠ typenameField →
      ∃ field, type.field? group.lead.call.name = some field ∧
        ∀ arguments, schema.coerceArguments field.arguments group.lead.call.arguments request.variableValues
            group.lead.call.name = .ok arguments →
          ∃ outcome, log.filter (fun resolution => resolution.path = path.join (.key group.key)) =
            [⟨{ parent, arguments, path := path.join (.key group.key), parentType := type.name,
                field := field.name }, outcome⟩]
  only : ∀ resolution ∈ log, schema.Called request root log resolution.info

namespace Schema

variable {σ : Type} {schema : Schema σ} {settings : ExecutionSettings} {request : Request} {root : Value}
  {state : σ}

/-- The log of a response with data is that of the root object, and each of its
fields has a path of its own. -/
theorem started_of_data {data : Value}
    (answered : (schema.execute settings request root state).1.data = some data) :
    ((schema.resolutions settings request root state).map Resolution.path).Nodup ∧
      (∃ type, schema.rootType? request.operation = some type) ∧
      ∀ type, schema.rootType? request.operation = some type → ∃ account,
        Executes schema request.variableValues (.object type request.selectionSet root) [] account ∧
          (schema.resolutions settings request root state).Perm account.resolutions := by
  obtain ⟨type, account, found, executes, log, _, _⟩ := account_of_data answered
  refine ⟨(log.map Resolution.path).nodup_iff.mpr executes.paths.1, ⟨type, found⟩, fun own same => ?_⟩
  obtain rfl := Option.some.inj (found.symm.trans same)
  exact ⟨account, executes, log⟩

/-- Whatever becomes of other fields and items, each field of a run is asked for
its value once, with the object that it is selected on, at the path of the
object extended by its key. -/
theorem dispatched_once {data : Value}
    (answered : (schema.execute settings request root state).1.data = some data) :
    DispatchedOnce schema request root (schema.resolutions settings request root state) := by
  obtain ⟨distinct, ⟨type, found⟩, started⟩ := started_of_data answered
  refine ⟨distinct, fun executed group member named => ?_, fun resolution member => ?_⟩
  · obtain ⟨field, declared⟩ := Option.isSome_iff_exists.mp ((lead_of_mem_fieldGroups member).resolve_left named)
    refine ⟨field, declared, fun arguments coerced => ?_⟩
    obtain ⟨outcome, asked⟩ := executed.asked distinct started member ⟨named, declared, coerced⟩
    exact ⟨outcome, filter_eq_singleton_of_nodup distinct asked⟩
  · obtain ⟨account, executes, log⟩ := started type found
    exact executes.called log.symm.subset (.root found) resolution (log.subset member)

/-- A list of objects in which one field breaks down and another
one takes its time. -/
def partTypes : List (TypeDef Unit) := [
  .object { name := "Part", fields := [
    { name := "size", type := .nonNull (.builtIn .int), resolver := some (.immediate fun _ => .panic none) },
    { name := "label", type := .builtIn .string, arguments := [{ name := "width", type := .builtIn .int }]
      resolver := some ((Resolver.immediate fun _ => .value (.string "new")).delayed 3) }] },
  .object { name := "Query", fields := [{ name := "parts", type := .list (.nonNull (.named "Part")) }] }]

def partSchema : Schema Unit := partTypes.foldl .insert .empty

def partRequest : Request where
  selectionSet := [.field { name := "parts" } [.field { name := "size" } [],
    .field { name := "label", label := some "wide", arguments := [("width", .value (.string "much"))] } [],
    .field { name := "label" } [], .field { name := "label" } []]]

def partRoot : Value := .object [("parts", .list [.object [], .int 7, .object []])]

/-- The labels of both objects are asked for although nothing is left of
the list, once although they are selected twice, and not where their
argument is no number. -/
theorem dispatched_once_parts :
    (partSchema.execute {} partRequest partRoot ()).1.data = some (.object [("parts", .null)]) ∧
      (partSchema.resolutions {} partRequest partRoot ()).map Resolution.path = [
        [.key "parts"], [.key "parts", .index 0, .key "size"], [.key "parts", .index 2, .key "size"],
        [.key "parts", .index 0, .key "label"], [.key "parts", .index 2, .key "label"]] ∧
      DispatchedOnce partSchema partRequest partRoot (partSchema.resolutions {} partRequest partRoot ()) := by
  have answered : (partSchema.execute {} partRequest partRoot ()).1.data =
      some (.object [("parts", .null)]) := rfl
  exact ⟨answered, rfl, dispatched_once answered⟩

end Schema

end SelectionEngine
