import SelectionEngine.Execution.Completed
import SelectionEngine.Execution.FieldGroup
import SelectionEngine.Coercion
import SelectionEngine.Schema.InterfaceResolution

namespace SelectionEngine

variable {ρ σ : Type}

/-- The value of a field: what its resolver gives, or the property of
its name on the parent. -/
def Schema.dispatch (schema : Schema σ) (info : ResolveInfo) : Task σ (Except ResolverError Value) :=
  match schema.resolver? info.parentType info.field with
  | some resolver => (resolver info).bind fun outcome => .done outcome.settle
  | none => .done (.ok ((info.parent.property? info.field).getD .null))

/-- The object type whose fields are selected on a value of a named type, or
nothing for a scalar, whose values are left as they are. -/
def Schema.concreteType? (schema : Schema ρ) (name : String) (value : Value) (path : Path) :
    Except Report (Option (ObjectType ρ)) :=
  match schema.lookup? name with
  | some (.scalar _) => .ok none
  | some (.object type) => .ok (some type)
  | some (.interface interface) => match schema.resolveConcrete interface value with
    | .ok concrete => match schema.lookup? concrete with
      | some (.object type) => .ok (some type)
      | _ => .error (Reportable.report (CompletionError.notAnOutputType concrete) (some path))
    | .error error => .error (Reportable.report error (some path))
  | some (.inputObject _) | none =>
    .error (Reportable.report (CompletionError.notAnOutputType name) (some path))

/-- What stays the same while one operation is executed. The tasks act on
states of their own: the resolvers bound to the types count only as far as
`dispatch` calls them. -/
structure Run (ρ σ : Type) where
  schema : Schema ρ
  variableValues : Object
  /-- Whether fields and items are worked on at the same time. -/
  parallel : Bool
  /-- How fields get their values. -/
  dispatch : ResolveInfo → Task σ (Except ResolverError Value)

/-- How the selections below a field are executed on an object. -/
abbrev ObjectExecution (ρ σ : Type) := ObjectType ρ → Value → Path → Task σ (Completed Object)

namespace Run

variable (run : Run ρ σ)

def gather {α : Type} (tasks : List (Task σ α)) : Task σ (List α) :=
  if run.parallel then .all tasks else .inTurn tasks

/-- The error of a null where there must be none. -/
def nullError (parentType field : String) (inner : TypeRef) (path : Path) : Report :=
  let error : CompletionError := match path.getLast? with
    | some (.index n) => .nullElement inner n
    | _ => .nullField parentType field
  Reportable.report error (some path)

def completeObject (execute : ObjectExecution ρ σ) (type : ObjectType ρ) (value : Value) (path : Path) :
    Task σ (Completed Value) :=
  match value with
  | .object _ => (execute type value path).bind fun c => .done (c.map .object)
  | _ => .done (.failed (Reportable.report (CompletionError.expectedObject type.name value) (some path)))

/-- Completes a value that is not null as one of a named type. -/
def completeNamed (execute : ObjectExecution ρ σ) (name : String) (value : Value) (path : Path) :
    Task σ (Completed Value) :=
  match run.schema.concreteType? name value path with
  | .ok none => .done (.ok value)
  | .ok (some type) => completeObject execute type value path
  | .error report => .done (.failed report)

def completeLeaf (type : BuiltIn) (value : Value) (path : Path) : Completed Value :=
  match type.complete? value with
  | some v => .ok v
  | none => .failed (Reportable.report (CompletionError.invalidLeaf type value) (some path))

/-- Completes the items of a list, each at its index. -/
def completeList (parentType field : String) (completeItem : Value → Path → Task σ (Completed Value))
    (value : Value) (path : Path) : Task σ (Completed Value) :=
  match value with
  | .list items =>
    (run.gather (items.zipIdx.map fun (item, n) => completeItem item (path.join (.index n)))).bind fun parts =>
      .done ((Completed.all parts).map .list)
  | _ =>
    .done (.failed (Reportable.report (CompletionError.expectedList parentType field value) (some path)))

/-- Completes a value of a field as one of a type, at a place that takes
care of failures itself. -/
def completeInner (execute : ObjectExecution ρ σ) (parentType field : String) :
    TypeRef → Value → Path → Task σ (Completed Value)
  | _, .null, _ => .done (.ok .null)
  | .nonNull inner, value, path =>
    (completeInner execute parentType field inner value path).bind fun c =>
      .done (c.refuseNull (nullError parentType field inner path))
  | .list (.nonNull inner), value, path =>
    run.completeList parentType field (fun item path =>
      (completeInner execute parentType field inner item path).bind fun c =>
        .done (c.refuseNull (nullError parentType field inner path))) value path
  | .list inner, value, path =>
    run.completeList parentType field (fun item path =>
      (completeInner execute parentType field inner item path).bind fun c => .done c.absorb) value path
  | .named name, value, path => run.completeNamed execute name value path
  | .builtIn scalar, value, path => .done (completeLeaf scalar value path)

/-- Completes a value of a field as one of a type. Null is refused where the
type says so, and where it does not a failure becomes null. -/
def complete (execute : ObjectExecution ρ σ) (parentType field : String) (type : TypeRef) (value : Value)
    (path : Path) : Task σ (Completed Value) :=
  match type with
  | .nonNull inner =>
    (run.completeInner execute parentType field inner value path).bind fun c =>
      .done (c.refuseNull (nullError parentType field inner path))
  | _ => (run.completeInner execute parentType field type value path).bind fun c => .done c.absorb

/-- What becomes of a field whose arguments or resolver failed. -/
def fieldFailure (type : TypeRef) (error : Report) : Completed Value :=
  if type.isNonNull then .failed error else ⟨some .null, [error]⟩

/-- Executes the fields of one group on an object. -/
def executeGroup (execute : ObjectExecution ρ σ) (type : ObjectType ρ) (parent : Value) (path : Path)
    (group : FieldGroup) : Task σ (Completed Value) :=
  let call := group.lead.call
  if call.name = typenameField then .done (.ok (.string type.name))
  else match type.field? call.name with
    | none => .done (.ok .null)
    | some field =>
      let path := path.join (.key group.key)
      match run.schema.coerceArguments field.arguments call.arguments run.variableValues call.name with
      | .error error => .done (fieldFailure field.type (Reportable.report error (some path)))
      | .ok arguments =>
        let info : ResolveInfo :=
          { parent, arguments, path, parentType := type.name, field := field.name }
        (run.dispatch info).bind fun
          | .error error => .done (fieldFailure field.type (Reportable.report error (some path)))
          | .ok value => run.complete execute type.name field.name field.type value path

/-- Executes selections in which fields nest at most `depth` deep on an object.
`serial` asks for one field after another. -/
def executeObject (serial : Bool) : Nat → List Selection → ObjectExecution ρ σ
  | 0, _ => fun _ _ _ => .done (.ok [])
  | depth + 1, selections => fun type parent path =>
    let groups := run.schema.fieldGroups type selections
    let tasks := groups.map fun group =>
      run.executeGroup (executeObject false depth group.selections) type parent path group
    (if serial then .inTurn tasks else run.gather tasks).bind fun parts =>
      .done ((Completed.all parts).map fun values => (groups.map FieldGroup.key).zip values)

end Run

end SelectionEngine
