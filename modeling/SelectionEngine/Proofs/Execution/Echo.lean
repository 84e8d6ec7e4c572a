import SelectionEngine.Execution.Operation
import SelectionEngine.Proofs.Coercion.Idempotence
import SelectionEngine.Proofs.Schema.Coherence
import SelectionEngine.Proofs.Task.Sequencing

namespace SelectionEngine

variable {ρ σ α : Type}

/-- What a built-in scalar admits is completed as it is. -/
theorem BuiltIn.Admits.complete?_eq {scalar : BuiltIn} {value : Value} (admits : scalar.Admits value) :
    scalar.complete? value = some value := by
  cases admits with
  | int lower upper => simp [complete?, Value.asInt32?, lower, upper]
  | _ => rfl

theorem CoercesTo.ne_null {schema : Schema ρ} {type : TypeRef} {value result : Value}
    (coerces : CoercesTo schema type value result) (strict : type.isNonNull) : result ≠ .null := by
  rintro rfl
  rw [coerces.isNonNull_of_null] at strict
  cases strict

theorem Completed.all_ok (values : List α) : Completed.all (values.map Completed.ok) = .ok values := by
  have present : (values.map Completed.ok).mapM Completed.value? = some values := by
    induction values with
    | nil => rfl
    | cons value values ih =>
      rw [List.map_cons, List.mapM_cons, ih]
      rfl
  have noErrors : (values.map Completed.ok).flatMap Completed.errors = [] := by
    rw [List.flatMap_map]
    exact List.flatMap_eq_nil_iff.mpr fun _ _ => rfl
  rw [all, present, noErrors, ok]

namespace Task

theorem all_done (as : List α) : all (as.map (@done σ α)) = done as := by
  induction as with
  | nil => rfl
  | cons a as ih => simp only [List.map_cons, all, both, ih, done_bind]

theorem inTurn_done (as : List α) : inTurn (as.map (@done σ α)) = done as := by
  induction as with
  | nil => rfl
  | cons a as ih => simp only [List.map_cons, inTurn, ih, done_bind]

end Task

/-- References that lead to scalars: built-in or registered ones,
in lists and markers. -/
inductive TypeRef.OfScalars (schema : Schema ρ) : TypeRef → Prop
  | builtIn (scalar : BuiltIn) : OfScalars schema (.builtIn scalar)
  | named {name scalar} : schema.lookup? name = some (.scalar scalar) → OfScalars schema (.named name)
  | list {inner} : OfScalars schema inner → OfScalars schema (.list inner)
  | nonNull {inner} : OfScalars schema inner → OfScalars schema (.nonNull inner)

namespace Run

variable (run : Run ρ σ) (execute : ObjectExecution ρ σ) (parentType field : String)

theorem gather_done (as : List α) : run.gather (as.map .done) = .done as := by
  rw [gather]
  split
  · exact Task.all_done as
  · exact Task.inTurn_done as

/-- A list whose items are completed as they are is so itself. -/
theorem completeList_of_items {completeItem : Value → Path → Task σ (Completed Value)} {items : List Value}
    (each : ∀ item ∈ items, ∀ path, completeItem item path = .done (.ok item)) (path : Path) :
    run.completeList parentType field completeItem (.list items) path = .done (.ok (.list items)) := by
  have tasks : (items.zipIdx.map fun entry => completeItem entry.1 (path.join (.index entry.2))) =
      (items.map Completed.ok).map .done := by
    have same : items = items.zipIdx.map Prod.fst := (List.zipIdx_map_fst 0 items).symm
    conv_rhs => rw [same, List.map_map, List.map_map]
    exact List.map_congr_left fun entry member => each entry.1 (List.fst_mem_of_mem_zipIdx member) _
  have gathers : run.completeList parentType field completeItem (.list items) path =
      (run.gather (items.zipIdx.map fun entry => completeItem entry.1 (path.join (.index entry.2)))).bind
        fun parts => .done ((Completed.all parts).map .list) := rfl
  rw [gathers, tasks, gather_done, Task.done_bind, Completed.all_ok]
  rfl

variable {run execute parentType field} {type : TypeRef}

/-- What is completed as it is at a place that takes care of failures is so at
any place that it fits. -/
theorem complete_of_completeInner_ok {value : Value} (fits : type.isNonNull → value ≠ .null) {path : Path}
    (inner : run.completeInner execute parentType field type value path = .done (.ok value)) :
    run.complete execute parentType field type value path = .done (.ok value) := by
  cases type with
  | nonNull type => rw [← completeInner_nonNull _ _ _ _ (fits rfl), inner]
  | _ =>
    rw [complete_of_nullable _ _ _ _ _ rfl, inner]
    rfl

theorem completeInner_of_coercesTo (scalars : type.OfScalars run.schema) {value result : Value}
    (coerces : CoercesTo run.schema type value result) (path : Path) :
    run.completeInner execute parentType field type result path = .done (.ok result) := by
  induction scalars generalizing value result path with
  | builtIn scalar =>
    rcases coerces.of_builtIn with rfl | admits
    · exact run.completeInner_null execute parentType field _ path
    · rw [completeInner_builtIn _ _ _ _ admits.ne_null, completeLeaf, admits.complete?_eq]
  | @named name scalar found =>
    by_cases null : result = .null
    · rw [null, completeInner_null]
    · have leaf : run.schema.concreteType? name result path = .ok none := by rw [Schema.concreteType?, found]
      rw [completeInner_named _ _ _ _ null, completeNamed, leaf]
  | @list inner scalars ih =>
    cases coerces with
    | null => exact run.completeInner_null execute parentType field _ path
    | @list _ items results length each =>
      have itemCoerces : ∀ item ∈ results, ∃ given, CoercesTo run.schema inner given item := by
        intro item member
        obtain ⟨n, inResults, rfl⟩ := List.getElem_of_mem member
        exact ⟨_, each n _ _ (List.getElem?_eq_getElem (length ▸ inResults)) (List.getElem?_eq_getElem inResults)⟩
      rw [completeInner_list _ _ _ _ (Value.list_ne_null results)]
      refine run.completeList_of_items parentType field (fun item member path => ?_) path
      obtain ⟨given, coerces⟩ := itemCoerces item member
      exact complete_of_completeInner_ok coerces.ne_null (ih coerces path)
  | @nonNull inner scalars ih =>
    obtain ⟨present, coerces⟩ := coerces.of_nonNull
    have kept : (Completed.ok result).value? ≠ some .null := by simpa [Completed.ok] using present
    rw [completeInner_nonNull _ _ _ _ present, complete, ih coerces path, Task.done_bind,
      Completed.refuseNull_of_ne_null _ kept]

theorem complete_of_coercesTo (scalars : type.OfScalars run.schema) {value result : Value}
    (coerces : CoercesTo run.schema type value result) (path : Path) :
    run.complete execute parentType field type result path = .done (.ok result) :=
  complete_of_completeInner_ok coerces.ne_null (completeInner_of_coercesTo scalars coerces path)

end Run

namespace Schema

/-- Whether a field of a registered type gives back one of its arguments, which
has the type of the field. An argument that is left out counts as null. -/
structure Returns (schema : Schema σ) (type : ObjectType σ) (field : FieldDef σ) (argument : ArgumentDef) :
    Prop where
  registered : schema.lookup? type.name = some (.object type)
  listed : field ∈ type.fields
  noMeta : field.name ≠ typenameField
  declared : argument ∈ field.arguments
  sameType : argument.type = field.type
  resolver : ∃ resolver, field.resolver = some resolver ∧ ∀ info state,
    ((resolver info).run state).1 = .value ((Entries.get? argument.name info.arguments).getD .null)

variable {schema : Schema σ}

/-- An argument that is left out may be null. -/
theorem exists_coercesTo_getD {arguments : List ArgumentDef} {given results : Object}
    (coerces : FieldsCoerceTo schema arguments given results) {argument : ArgumentDef}
    (declared : argument ∈ arguments) :
    ∃ value, CoercesTo schema argument.type value ((Entries.get? argument.name results).getD .null) := by
  cases found : Entries.get? argument.name results with
  | some result => exact coerces.of_get? declared found
  | none => exact ⟨.null, .null (coerces.get?_eq_none declared found).2⟩

namespace Returns

variable {type : ObjectType σ} {field : FieldDef σ} {argument : ArgumentDef}
  (returns : schema.Returns type field argument) (registered : schema.Registered)

include returns registered

theorem field? : type.field? field.name = some field :=
  find?_eq_some_of_nodup (registered.wellFormed returns.registered).fields returns.listed

/-- Whatever the resolver does to the state, the field gets the
argument as its value. -/
theorem run_dispatch {info : ResolveInfo} (parentType : info.parentType = type.name)
    (called : info.field = field.name) (state : σ) :
    ((schema.dispatch info).run state).1 =
      .ok ((Entries.get? argument.name info.arguments).getD .null) := by
  obtain ⟨resolver, carried, gives⟩ := returns.resolver
  have bound : schema.resolver? info.parentType info.field = some resolver := by
    rw [registered.resolver?_eq_carried?, carried?, parentType, called, returns.registered]
    simp only [returns.field? registered, Option.bind_some, carried]
  simp only [dispatch, bound, Task.run_bind, gives, Outcome.settle]
  rfl

theorem run_executeGroup (scalars : field.type.OfScalars schema) {run : Run σ σ} (on : run.schema = schema)
    (dispatches : run.dispatch = schema.dispatch) {execute : ObjectExecution σ σ} {parent : Value} {path : Path}
    {group : FieldGroup} (called : group.lead.call.name = field.name) {arguments : Object}
    (coerced : schema.coerceArguments field.arguments group.lead.call.arguments run.variableValues field.name =
      .ok arguments) (state : σ) :
    ((run.executeGroup execute type parent path group).run state).1 =
      .ok ((Entries.get? argument.name arguments).getD .null) := by
  subst on
  have distinct := ((registered.wellFormed returns.registered).each field returns.listed).arguments
  have fits := fieldsCoerceTo_of_coerceArguments registered distinct coerced
  obtain ⟨given, coerces⟩ := exists_coercesTo_getD fits returns.declared
  rw [returns.sameType] at coerces
  simp only [Run.executeGroup, called, if_neg returns.noMeta, returns.field? registered, coerced, dispatches,
    Task.run_bind]
  rw [returns.run_dispatch registered]
  · simp only [Run.complete_of_coercesTo scalars coerces, Task.run]
  · rfl
  · rfl

end Returns

/-- What was coerced to a type of scalars is completed as a value of the same
type without a change or an error. So a field that gives back an argument of its
own type never fails once its arguments are there. -/
theorem completion_keeps_coerced (registered : schema.Registered) :
    (∀ (type : TypeRef) value place result, type.OfScalars schema →
      schema.coerceValue value type place = .ok result →
      ∀ (τ : Type) (run : Run σ τ) execute parentType field path, run.schema = schema →
        run.complete execute parentType field type result path = .done (.ok result)) ∧
    ∀ type field argument, schema.Returns type field argument → field.type.OfScalars schema →
      ∀ settings request execute parent path group arguments, group.lead.call.name = field.name →
        schema.coerceArguments field.arguments group.lead.call.arguments request.variableValues field.name =
          .ok arguments →
        ∀ state, (((schema.runOf settings request).executeGroup execute type parent path group).run state).1 =
          .ok ((Entries.get? argument.name arguments).getD .null) := by
  constructor
  · rintro type value place result scalars coerced τ run execute parentType field path rfl
    have coerces := coercesTo_of_coerceWithin registered _ value type place result coerced
    exact Run.complete_of_coercesTo scalars coerces path
  · intro type field argument returns scalars settings request execute parent path group arguments
      called coerced state
    exact returns.run_executeGroup registered scalars rfl rfl called coerced state

/-- A field that gives back the identifiers it is asked for, and counts
how often that happens. -/
def relay : FieldDef Nat where
  name := "relay"
  type := .nonNull (.list (.builtIn .id))
  arguments := [{ name := "ids", type := .nonNull (.list (.builtIn .id)) }]
  resolver := some (.acting fun info n => (.value ((Entries.get? "ids" info.arguments).getD .null), n + 1))

def relayRoot : ObjectType Nat := { name := "Query", fields := [relay] }

def relaySchema : Schema Nat := [.object relayRoot].foldl .insert .empty

def relayGroup : FieldGroup where
  key := "relay"
  lead := ⟨{ name := "relay", arguments := [
    ("ids", .list [.value (.int 7), .variable "next", .value (.string "8")])] }, []⟩

theorem completion_keeps_coerced_relay :
    relaySchema.Registered ∧
      relaySchema.coerceValue (.list [.int 7, .null]) (.list (.builtIn .id)) "ids" =
        .ok (.list [.string "7", .null]) ∧
      (∀ run : Run Nat Nat, run.schema = relaySchema → ∀ execute,
        run.complete execute "Query" "relay" (.list (.builtIn .id)) (.list [.string "7", .null]) [.key "relay"] =
          .done (.ok (.list [.string "7", .null]))) ∧
      relaySchema.Returns relayRoot relay { name := "ids", type := .nonNull (.list (.builtIn .id)) } ∧
      (((relaySchema.runOf {} {}).executeGroup (fun _ _ _ => .done (.ok [])) relayRoot .null
        [] relayGroup).run 0).1 =
        .ok (.list [.string "7", .null, .string "8"]) := by
  have registered : relaySchema.Registered :=
    Registered.empty.registerAll (show empty.registerAll [.object relayRoot] = .ok relaySchema from rfl)
  have coerced : relaySchema.coerceValue (.list [.int 7, .null]) (.list (.builtIn .id)) "ids" =
      .ok (.list [.string "7", .null]) := by decide +kernel
  have returns : relaySchema.Returns relayRoot relay { name := "ids", type := .nonNull (.list (.builtIn .id)) } :=
    ⟨rfl, .head _, by decide, .head _, rfl, _, rfl, fun _ _ => rfl⟩
  obtain ⟨values, fields⟩ := completion_keeps_coerced registered
  refine ⟨registered, coerced, fun run on execute => ?_, returns, ?_⟩
  · exact values _ _ "ids" _ (.list (.builtIn .id)) coerced Nat run execute "Query" "relay" [.key "relay"] on
  · have arguments : relaySchema.coerceArguments relay.arguments relayGroup.lead.call.arguments [] relay.name =
        .ok [("ids", .list [.string "7", .null, .string "8"])] := by decide +kernel
    exact fields _ _ _ returns (.nonNull (.list (.builtIn .id))) {} {} _ .null [] relayGroup _ rfl arguments 0

end Schema

end SelectionEngine
