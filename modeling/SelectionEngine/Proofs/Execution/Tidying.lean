import SelectionEngine.Proofs.Coercion.EqualArguments
import SelectionEngine.Proofs.Execution.Calls
import SelectionEngine.Proofs.Execution.FieldGroups
import SelectionEngine.Proofs.Execution.Responses

namespace SelectionEngine

variable {ρ σ : Type}

/-- Whether a field is selected again: by the same name, under the same key and
with equal arguments. -/
structure FieldCall.Repeats (again call : FieldCall) : Prop where
  name : again.name = call.name
  responseKey : again.responseKey = call.responseKey
  arguments : InputValue.Equal (.object call.arguments) (.object again.arguments)

/-- What selections become when fragments without a condition are opened and a
field that is selected again right after itself is merged with the first one, at
any number of places. -/
inductive Selection.Tidied : List Selection → List Selection → Prop
  | same (selections) : Tidied selections selections
  | append {front tidyFront back tidyBack} : Tidied front tidyFront → Tidied back tidyBack →
      Tidied (front ++ back) (tidyFront ++ tidyBack)
  | field (call) {selections tidy} : Tidied selections tidy → Tidied [.field call selections] [.field call tidy]
  | fragment (condition) {selections tidy} : Tidied selections tidy →
      Tidied [.fragment condition selections] [.fragment condition tidy]
  | opened (inner) : Tidied [.fragment none inner] inner
  | merged {call again} (first second) : again.Repeats call →
      Tidied [.field call first, .field again second] [.field call (first ++ second)]

namespace Selection

/-- Tidied selections nest as deep as they did. -/
theorem Tidied.depth_eq {selections tidy : List Selection} (tidied : Tidied selections tidy) :
    depthOfAll tidy = depthOfAll selections := by
  induction tidied with
  | same => rfl
  | append _ _ front back => rw [depthOfAll_append, depthOfAll_append, front, back]
  | field call _ ih => simp only [depthOfAll, depth, ih]
  | fragment condition _ ih => simp only [depthOfAll, depth, ih]
  | opened inner => simp only [depthOfAll, depth, Nat.max_zero]
  | merged first second =>
    simp only [depthOfAll, depth, depthOfAll_append, Nat.max_zero]
    omega

end Selection

theorem map_eq_of_forall₂ {α β γ : Type} {R : α → β → Prop} {f : α → γ} {g : β → γ} {as : List α} {bs : List β}
    (related : List.Forall₂ R as bs) (same : ∀ {a b}, R a b → g b = f a) : bs.map g = as.map f := by
  induction related with
  | nil => rfl
  | cons first _ ih => rw [List.map_cons, List.map_cons, same first, ih]

/-- What the fields of a group become when selections are tidied. Whatever a
repeated field passes if the first one does is checked alike. -/
structure FieldsTidied (fields tidyFields : List SelectedField) : Prop where
  selections :
    Selection.Tidied (fields.flatMap SelectedField.selections) (tidyFields.flatMap SelectedField.selections)
  checks (check : FieldCall → Option Report) :
    (∀ call again : FieldCall, again.Repeats call → check call = none → check again = none) →
    tidyFields.findSome? (fun field => check field.call) = fields.findSome? fun field => check field.call

namespace FieldsTidied

variable {selections tidy : List Selection}

theorem append {fields tidyFields more tidyMore : List SelectedField} (front : FieldsTidied fields tidyFields)
    (back : FieldsTidied more tidyMore) : FieldsTidied (fields ++ more) (tidyFields ++ tidyMore) where
  selections := by
    rw [List.flatMap_append, List.flatMap_append]
    exact front.selections.append back.selections
  checks check passes := by
    rw [List.findSome?_append, List.findSome?_append, front.checks check passes, back.checks check passes]

theorem single (call : FieldCall) (tidied : Selection.Tidied selections tidy) :
    FieldsTidied [⟨call, selections⟩] [⟨call, tidy⟩] where
  selections := by simpa using tidied
  checks _ _ := rfl

theorem pair {call again : FieldCall} (repeats : again.Repeats call) (first second : List Selection) :
    FieldsTidied [⟨call, first⟩, ⟨again, second⟩] [⟨call, first ++ second⟩] where
  selections := by simpa using Selection.Tidied.same (first ++ second)
  checks check passes := by
    have skipped := passes call again repeats
    cases checked : check call <;> simp_all

end FieldsTidied

namespace FieldGroup

structure Tidied (group tidy : FieldGroup) : Prop where
  key : tidy.key = group.key
  lead : tidy.lead.call = group.lead.call
  fields : FieldsTidied group.fields tidy.fields

variable {group tidy : FieldGroup} {groups tidyGroups : List FieldGroup}

theorem Tidied.extend (tidied : group.Tidied tidy) {fields tidyFields : List SelectedField}
    (more : FieldsTidied fields tidyFields) :
    Tidied { group with others := group.others ++ fields } { tidy with others := tidy.others ++ tidyFields } where
  key := tidied.key
  lead := tidied.lead
  fields := tidied.fields.append more

theorem addTo_tidied (tidied : List.Forall₂ Tidied groups tidyGroups) (call : FieldCall)
    {selections tidySelections : List Selection} (below : Selection.Tidied selections tidySelections) :
    List.Forall₂ Tidied (addTo ⟨call, selections⟩ groups) (addTo ⟨call, tidySelections⟩ tidyGroups) := by
  have single : FieldsTidied [⟨call, selections⟩] [⟨call, tidySelections⟩] := .single call below
  induction tidied with
  | nil => exact .cons ⟨rfl, rfl, single⟩ .nil
  | @cons group tidy _ _ first others ih =>
    by_cases same : group.key = call.responseKey
    · rw [addTo, addTo, if_pos same, if_pos (first.key.trans same)]
      exact .cons (first.extend single) others
    · rw [addTo, addTo, if_neg same, if_neg (first.key ▸ same)]
      exact .cons first ih

/-- A field and the one that repeats it come to the same group. -/
theorem addTo_addTo_tidied (tidied : List.Forall₂ Tidied groups tidyGroups) {call again : FieldCall}
    (repeats : again.Repeats call) (first second : List Selection) :
    List.Forall₂ Tidied (addTo ⟨again, second⟩ (addTo ⟨call, first⟩ groups))
      (addTo ⟨call, first ++ second⟩ tidyGroups) := by
  have pair : FieldsTidied [⟨call, first⟩, ⟨again, second⟩] [⟨call, first ++ second⟩] := .pair repeats first second
  induction tidied with
  | nil =>
    simp only [addTo, repeats.responseKey, if_true]
    exact .cons ⟨rfl, rfl, pair⟩ .nil
  | @cons group tidy _ _ one others ih =>
    by_cases same : group.key = call.responseKey
    · have sameAgain : group.key = again.responseKey := same.trans repeats.responseKey.symm
      rw [addTo, addTo, if_pos same, addTo, if_pos sameAgain, if_pos (one.key.trans same), List.append_assoc]
      exact .cons (one.extend pair) others
    · have otherAgain : ¬ group.key = again.responseKey := repeats.responseKey ▸ same
      rw [addTo, addTo, if_neg same, addTo, if_neg otherAgain, if_neg (one.key ▸ same)]
      exact .cons one ih

end FieldGroup

namespace Schema

variable (schema : Schema σ) (type : ObjectType σ)

theorem collectAll_same (selections : List Selection) {groups tidyGroups : List FieldGroup}
    (before : List.Forall₂ FieldGroup.Tidied groups tidyGroups) :
    List.Forall₂ FieldGroup.Tidied (schema.collectAll type selections groups)
      (schema.collectAll type selections tidyGroups) := by
  rw [collectAll_eq_addAll, collectAll_eq_addAll]
  generalize schema.selectedFieldsOfAll type selections = fields
  induction fields generalizing groups tidyGroups with
  | nil => exact before
  | cons field fields ih => exact ih (FieldGroup.addTo_tidied before field.call (.same field.selections))

/-- Tidied selections come to tidied groups, in the same order and whatever has
been collected before. -/
theorem collectAll_tidied {selections tidy : List Selection} (tidied : Selection.Tidied selections tidy)
    {groups tidyGroups : List FieldGroup} (before : List.Forall₂ FieldGroup.Tidied groups tidyGroups) :
    List.Forall₂ FieldGroup.Tidied (schema.collectAll type selections groups)
      (schema.collectAll type tidy tidyGroups) := by
  induction tidied generalizing groups tidyGroups with
  | same selections => exact schema.collectAll_same type selections before
  | append _ _ front back =>
    rw [collectAll_append, collectAll_append]
    exact back (front before)
  | field call below =>
    simp only [collectAll, collect]
    split
    · exact FieldGroup.addTo_tidied before call below
    · exact before
  | fragment condition _ inner =>
    simp only [collectAll, collect]
    split
    · exact inner before
    · exact before
  | opened inner =>
    simp only [collectAll, collect, applies, if_true]
    exact schema.collectAll_same type inner before
  | @merged call again first second repeats =>
    simp only [collectAll, collect, repeats.name]
    split
    · exact FieldGroup.addTo_addTo_tidied before repeats first second
    · exact before

theorem fieldGroups_tidied {selections tidy : List Selection} (tidied : Selection.Tidied selections tidy) :
    List.Forall₂ FieldGroup.Tidied (schema.fieldGroups type selections) (schema.fieldGroups type tidy) :=
  schema.collectAll_tidied type tidied .nil

end Schema

namespace Run

variable (run : Run ρ σ)

theorem executeGroup_tidied {group tidy : FieldGroup} (tidied : group.Tidied tidy) (execute : ObjectExecution ρ σ)
    (type : ObjectType ρ) (parent : Value) (path : Path) :
    run.executeGroup execute type parent path tidy = run.executeGroup execute type parent path group := by
  simp only [executeGroup, tidied.key, tidied.lead]

/-- Tidied selections are executed in the same way, on whatever object. -/
theorem executeObject_tidied (serial : Bool) (depth : Nat) {selections tidy : List Selection}
    (tidied : Selection.Tidied selections tidy) :
    run.executeObject serial depth tidy = run.executeObject serial depth selections := by
  induction depth generalizing serial selections tidy with
  | zero => rfl
  | succ depth ih =>
    funext type parent path
    have groups := run.schema.fieldGroups_tidied type tidied
    have keys := map_eq_of_forall₂ groups fun tidied => tidied.key
    have tasks := map_eq_of_forall₂ groups fun {group tidy} (tidied : group.Tidied tidy) =>
      show run.executeGroup (run.executeObject false depth tidy.selections) type parent path tidy =
          run.executeGroup (run.executeObject false depth group.selections) type parent path group by
        rw [run.executeGroup_tidied tidied, FieldGroup.selections, ih false tidied.fields.selections,
          FieldGroup.selections]
    simp only [executeObject, keys, tasks]

end Run

namespace Schema

variable (schema : Schema σ) (settings : ExecutionSettings) (request : Request)

theorem argumentError?_of_repeats {type : ObjectType σ} {variableValues : Object} {key : String}
    {call again : FieldCall} (repeats : again.Repeats call)
    (passes : schema.argumentError? type variableValues key call = none) :
    schema.argumentError? type variableValues key again = none := by
  rw [argumentError?] at passes ⊢
  rw [repeats.name]
  cases declared : type.field? call.name with
  | none => rfl
  | some field =>
    simp only [declared] at passes ⊢
    split at passes
    · next coerced accepted =>
      obtain ⟨other, found⟩ := coerceArguments_accepts repeats.arguments ⟨coerced, accepted⟩
      rw [found]
    · cases passes

theorem rootArgumentError?_tidied (type : ObjectType σ) {tidy : List Selection}
    (tidied : Selection.Tidied request.selectionSet tidy) :
    schema.rootArgumentError? type { request with selectionSet := tidy } =
      schema.rootArgumentError? type request := by
  have checked {group tidy : FieldGroup} (tidied : group.Tidied tidy) :
      (tidy.fields.findSome? fun field => schema.argumentError? type request.variableValues tidy.key field.call) =
        group.fields.findSome? fun field =>
          schema.argumentError? type request.variableValues group.key field.call := by
    rw [tidied.key]
    exact tidied.fields.checks _ fun _ _ => schema.argumentError?_of_repeats
  have groups := congrArg (List.findSome? id) (map_eq_of_forall₂ (schema.fieldGroups_tidied type tidied) checked)
  rw [rootArgumentError?_eq, rootArgumentError?_eq]
  simpa only [List.findSome?_map, Function.id_comp] using groups

theorem prepare_tidied {tidy : List Selection} (tidied : Selection.Tidied request.selectionSet tidy)
    (root : Value) :
    schema.prepare settings { request with selectionSet := tidy } root = schema.prepare settings request root := by
  have run (serial : Bool) (depth : Nat) :
      (schema.runOf settings { request with selectionSet := tidy }).executeObject serial depth tidy =
        (schema.runOf settings request).executeObject serial depth request.selectionSet :=
    (schema.runOf settings request).executeObject_tidied serial depth tidied
  simp only [prepare, tidied.depth_eq, schema.rootArgumentError?_tidied request _ tidied, run]

theorem execute_tidied {tidy : List Selection} (tidied : Selection.Tidied request.selectionSet tidy) (root : Value)
    (state : σ) :
    schema.execute settings { request with selectionSet := tidy } root state =
      schema.execute settings request root state := by
  simp only [execute, schema.prepare_tidied settings request tidied]

theorem calls_tidied {tidy : List Selection} (tidied : Selection.Tidied request.selectionSet tidy) (root : Value)
    (state : σ) :
    schema.calls settings { request with selectionSet := tidy } root state =
      schema.calls settings request root state := by
  rw [calls, calls, execute_tidied schema.recorded settings request tidied]

end Schema

/-- A place for some selections: next to each other in a selection
set, or in one below. -/
inductive SelectionPlace where
  | here (front back : List Selection)
  | field (front : List Selection) (call : FieldCall) (inside : SelectionPlace) (back : List Selection)
  | fragment (front : List Selection) (condition : Option String) (inside : SelectionPlace) (back : List Selection)

namespace SelectionPlace

/-- The selections that have some others at the place. -/
def fill (selections : List Selection) : SelectionPlace → List Selection
  | here front back => front ++ selections ++ back
  | field front call inside back => front ++ .field call (inside.fill selections) :: back
  | fragment front condition inside back => front ++ .fragment condition (inside.fill selections) :: back

theorem fill_tidied {selections tidy : List Selection} (tidied : Selection.Tidied selections tidy)
    (place : SelectionPlace) : Selection.Tidied (place.fill selections) (place.fill tidy) := by
  induction place with
  | here front back => exact ((Selection.Tidied.same front).append tidied).append (.same back)
  | field front call inside back ih =>
    exact (Selection.Tidied.same front).append (.append (.field call ih) (.same back))
  | fragment front condition inside back ih =>
    exact (Selection.Tidied.same front).append (.append (.fragment condition ih) (.same back))

end SelectionPlace

namespace Schema

/-- A fragment without a type condition stands for its
selections, wherever it is. -/
theorem execute_open_fragment (schema : Schema σ) (settings : ExecutionSettings) (request : Request)
    (place : SelectionPlace) (inner : List Selection) (root : Value) (state : σ) :
    schema.execute settings { request with selectionSet := place.fill inner } root state =
      schema.execute settings { request with selectionSet := place.fill [.fragment none inner] } root state :=
  schema.execute_tidied settings { request with selectionSet := place.fill [.fragment none inner] }
    (place.fill_tidied (.opened inner)) root state

/-- A field that is selected again right after itself is one field with the
selections of both, wherever it is, and its resolver is called as often. -/
theorem execute_merge_repeated (schema : Schema σ) (settings : ExecutionSettings) (request : Request)
    (place : SelectionPlace) {call again : FieldCall} (repeats : again.Repeats call) (first second : List Selection)
    (root : Value) (state : σ) :
    schema.execute settings { request with selectionSet := place.fill [.field call (first ++ second)] } root state =
      schema.execute settings { request with
        selectionSet := place.fill [.field call first, .field again second] } root state ∧
    schema.calls settings { request with selectionSet := place.fill [.field call (first ++ second)] } root state =
      schema.calls settings { request with
        selectionSet := place.fill [.field call first, .field again second] } root state := by
  have tidied := place.fill_tidied (.merged first second repeats)
  exact ⟨schema.execute_tidied settings { request with selectionSet := place.fill _ } tidied root state,
    schema.calls_tidied settings { request with selectionSet := place.fill _ } tidied root state⟩

def homeArguments : List ArgumentDef :=
  [{ name := "year", type := .builtIn .int }, { name := "day", type := .builtIn .int }]

/-- An interface with a field that counts how often it is called. -/
def colonyTypes : List (TypeDef Nat) := [
  .object { name := "Planet", fields := [
    { name := "name", type := .builtIn .string },
    { name := "moons", type := .list (.named "Planet") }] },
  .interface { name := "Member", fields :=
    [{ name := "home", type := .named "Planet", arguments := homeArguments }] },
  .object { name := "Robot", interfaces := ["Member"], fields := [
    { name := "home", type := .named "Planet", arguments := homeArguments
      resolver :=
        some (.acting fun info count => (.value ((info.parent.property? "from").getD .null), count + 1)) }] },
  .object { name := "Query", fields := [{ name := "crew", type := .list (.named "Member") }] }]

def colonySchema : Schema Nat := colonyTypes.foldl .insert .empty

def colonyRoot : Value :=
  let mars : Value := .object [("name", .string "Mars"), ("moons", .list [.object [("name", .string "Phobos")]])]
  .object [("crew", .list [.object [("__typename", .string "Robot"), ("from", mars)],
    .object [("__typename", .string "Robot"), ("from", .object [("name", .string "Vega")])]])]

/-- In the items of a list, where the interface is asked for. -/
def colonyPlace : SelectionPlace :=
  .field [] { name := "crew" } (.fragment [] (some "Member") (.here [] []) []) []

def homeCall : FieldCall where
  name := "home"
  arguments := [("year", .value (.int 3)), ("day", .variable "today")]

def homeCallAgain : FieldCall where
  name := "home"
  label := some "home"
  arguments := homeCall.arguments.reverse

theorem homeCallAgain_repeats : homeCallAgain.Repeats homeCall where
  name := rfl
  responseKey := rfl
  arguments := .of_perm (by decide) (List.reverse_perm _).symm

theorem execute_merge_repeated_colony :
    let request : Request := { variableValues := [("today", .int 4)] }
    let apart : Request := { request with selectionSet := colonyPlace.fill [
      .field homeCall [.field { name := "name" } []],
      .field homeCallAgain [.field { name := "moons" } [.field { name := "name" } []]]] }
    let together : Request := { request with selectionSet := colonyPlace.fill [
      .field homeCall [.field { name := "name" } [], .field { name := "moons" } [.field { name := "name" } []]]] }
    homeCallAgain.Repeats homeCall ∧
    colonySchema.execute {} together colonyRoot 0 = colonySchema.execute {} apart colonyRoot 0 ∧
    colonySchema.calls {} together colonyRoot 0 = colonySchema.calls {} apart colonyRoot 0 ∧
    colonySchema.execute {} apart colonyRoot 0 = ({ data := some (.object [("crew", .list [
      .object [("home",
        .object [("name", .string "Mars"), ("moons", .list [.object [("name", .string "Phobos")]])])],
      .object [("home", .object [("name", .string "Vega"), ("moons", .null)])]])]), errors := [] }, 2) := by
  intro request apart together
  have merged := colonySchema.execute_merge_repeated {} request colonyPlace homeCallAgain_repeats
    [.field { name := "name" } []] [.field { name := "moons" } [.field { name := "name" } []]] colonyRoot 0
  exact ⟨homeCallAgain_repeats, merged.1, merged.2, by decide +kernel⟩

end Schema

end SelectionEngine
