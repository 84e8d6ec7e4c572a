import SelectionEngine.Proofs.Execution.Completion
import SelectionEngine.Proofs.Execution.FieldGroups

namespace SelectionEngine

/-- The field of an object type that a value belongs to, with what
is selected below it. -/
structure FieldSite where
  parentType : String
  field : String
  selections : List Selection

/-- What is worked on at a path of the response: the fields of an object, one of
their groups, a value at a place with a type, or that value before the place has
taken care of null and of failures. -/
inductive Subject (ρ : Type) where
  | object (type : ObjectType ρ) (selections : List Selection) (parent : Value)
  | group (type : ObjectType ρ) (parent : Value) (group : FieldGroup)
  | place (site : FieldSite) (type : TypeRef) (value : Value)
  | content (site : FieldSite) (type : TypeRef) (value : Value)

/-- A field that was asked for its value, and what became of it. -/
structure Resolution where
  info : ResolveInfo
  outcome : Except ResolverError Value

/-- What work on a part of the response came to, with the fields that were asked
for their values below it, in the order of the response. -/
structure Account where
  completed : Completed Value
  resolutions : List Resolution := []

namespace Account

/-- The object of several fields. -/
def ofFields (keys : List String) (accounts : List Account) : Account where
  completed := (Completed.all (accounts.map completed)).map fun values => .object (keys.zip values)
  resolutions := accounts.flatMap resolutions

/-- The list of several items. -/
def ofItems (accounts : List Account) : Account where
  completed := (Completed.all (accounts.map completed)).map .list
  resolutions := accounts.flatMap resolutions

theorem getElem?_of_all {accounts : List Account} {values : List Value}
    (present : (Completed.all (accounts.map completed)).value? = some values) {n : Nat} {value : Value}
    (atValue : values[n]? = some value) :
    ∃ account, accounts[n]? = some account ∧ account.completed.value? = some value := by
  rw [Completed.getElem?_of_all present, List.getElem?_map] at atValue
  simpa only [Option.bind_map, Option.bind_eq_some_iff, Function.comp_apply] using atValue

end Account

variable {ρ : Type}

/-- What the resolver of a field learns. -/
def FieldGroup.info (group : FieldGroup) (type : ObjectType ρ) (field : FieldDef ρ) (parent : Value)
    (path : Path) (arguments : Object) : ResolveInfo where
  parent := parent
  arguments := arguments
  path := path.join (.key group.key)
  parentType := type.name
  field := field.name

/-- Why a value that is not null cannot be completed as one of a type. -/
inductive Rejects (schema : Schema ρ) (site : FieldSite) : TypeRef → Value → Path → Report → Prop
  | notList {inner value path} : value ≠ .null → (∀ items, value ≠ .list items) →
      Rejects schema site (.list inner) value path
        (Reportable.report (CompletionError.expectedList site.parentType site.field value) (some path))
  | notObject {name type value path} : value ≠ .null → (∀ entries, value ≠ .object entries) →
      schema.concreteType? name value path = .ok (some type) →
      Rejects schema site (.named name) value path
        (Reportable.report (CompletionError.expectedObject type.name value) (some path))
  | noType {name value path report} : value ≠ .null →
      schema.concreteType? name value path = .error report →
      Rejects schema site (.named name) value path report
  | notLeaf {scalar value path} : value ≠ .null → BuiltIn.complete? scalar value = none →
      Rejects schema site (.builtIn scalar) value path
        (Reportable.report (CompletionError.invalidLeaf scalar value) (some path))

/-- The rules by which parts of a response come about, whatever resolvers give.
They say nothing of tasks, states and time. -/
inductive Executes (schema : Schema ρ) (variableValues : Object) : Subject ρ → Path → Account → Prop
  | object {type selections parent path} {accounts : List Account} :
      accounts.length = (schema.fieldGroups type selections).length →
      (∀ (n : Nat) group account, (schema.fieldGroups type selections)[n]? = some group →
        accounts[n]? = some account →
        Executes schema variableValues (.group type parent group) path account) →
      Executes schema variableValues (.object type selections parent) path
        (.ofFields ((schema.fieldGroups type selections).map FieldGroup.key) accounts)
  | typename {type parent group path} :
      group.lead.call.name = typenameField →
      Executes schema variableValues (.group type parent group) path ⟨.ok (.string type.name), []⟩
  | badArguments {type parent group path field error} :
      group.lead.call.name ≠ typenameField → type.field? group.lead.call.name = some field →
      schema.coerceArguments field.arguments group.lead.call.arguments variableValues group.lead.call.name =
        .error error →
      Executes schema variableValues (.group type parent group) path
        ⟨Run.fieldFailure field.type (Reportable.report error (some (path.join (.key group.key)))), []⟩
  | unresolved {type parent group path field arguments error} :
      group.lead.call.name ≠ typenameField → type.field? group.lead.call.name = some field →
      schema.coerceArguments field.arguments group.lead.call.arguments variableValues group.lead.call.name =
        .ok arguments →
      Executes schema variableValues (.group type parent group) path
        ⟨Run.fieldFailure field.type (Reportable.report error (some (path.join (.key group.key)))),
          [⟨group.info type field parent path arguments, .error error⟩]⟩
  | resolved {type parent group path field arguments value account} :
      group.lead.call.name ≠ typenameField → type.field? group.lead.call.name = some field →
      schema.coerceArguments field.arguments group.lead.call.arguments variableValues group.lead.call.name =
        .ok arguments →
      Executes schema variableValues (.place ⟨type.name, field.name, group.selections⟩ field.type value)
        (path.join (.key group.key)) account →
      Executes schema variableValues (.group type parent group) path
        ⟨account.completed, ⟨group.info type field parent path arguments, .ok value⟩ :: account.resolutions⟩
  | strict {site inner value path account} :
      Executes schema variableValues (.content site inner value) path account →
      Executes schema variableValues (.place site (.nonNull inner) value) path
        ⟨account.completed.refuseNull (Run.nullError site.parentType site.field inner path),
          account.resolutions⟩
  | lenient {site type value path account} : TypeRef.isNonNull type = false →
      Executes schema variableValues (.content site type value) path account →
      Executes schema variableValues (.place site type value) path
        ⟨account.completed.absorb, account.resolutions⟩
  | null {site type path} :
      Executes schema variableValues (.content site type .null) path ⟨.ok .null, []⟩
  | wrapped {site inner value path account} : value ≠ .null →
      Executes schema variableValues (.place site (.nonNull inner) value) path account →
      Executes schema variableValues (.content site (.nonNull inner) value) path account
  | list {site inner path} {items : List Value} {accounts : List Account} :
      accounts.length = items.length →
      (∀ (n : Nat) item account, items[n]? = some item → accounts[n]? = some account →
        Executes schema variableValues (.place site inner item) (path.join (.index n)) account) →
      Executes schema variableValues (.content site (.list inner) (.list items)) path (.ofItems accounts)
  | scalar {site name value path} : value ≠ .null → schema.concreteType? name value path = .ok none →
      Executes schema variableValues (.content site (.named name) value) path ⟨.ok value, []⟩
  | named {site : FieldSite} {name type entries path account} :
      schema.concreteType? name (.object entries) path = .ok (some type) →
      Executes schema variableValues (.object type site.selections (.object entries)) path account →
      Executes schema variableValues (.content site (.named name) (.object entries)) path account
  | leaf {site scalar value result path} : value ≠ .null → BuiltIn.complete? scalar value = some result →
      Executes schema variableValues (.content site (.builtIn scalar) value) path ⟨.ok result, []⟩
  | rejected {site type value path report} : Rejects schema site type value path report →
      Executes schema variableValues (.content site type value) path ⟨.failed report, []⟩

/-- What is rejected is reported where it is. -/
theorem Rejects.path {schema : Schema ρ} {site : FieldSite} {type : TypeRef} {value : Value} {path : Path}
    {report : Report} (rejects : Rejects schema site type value path report) : report.path = some path := by
  cases rejects with
  | notList | notObject | notLeaf => rfl
  | noType _ failed =>
    simp only [Schema.concreteType?] at failed
    split at failed
    · cases failed
    · cases failed
    · split at failed
      · split at failed <;> cases failed
        rfl
      · cases failed
        rfl
    all_goals
      cases failed
      rfl

end SelectionEngine
