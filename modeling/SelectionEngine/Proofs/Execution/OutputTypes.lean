import SelectionEngine.Proofs.Execution.ErrorOrder
import SelectionEngine.Proofs.Execution.NullBubbling
import SelectionEngine.Proofs.Schema.Validity

namespace SelectionEngine

theorem Report.code?_report {ε : Type} [Reportable ε] (error : ε) (path : Option Path) :
    (Reportable.report error path).code? = some (Reportable.code error) := by
  simp [code?, Reportable.report, Entries.get?_set]

/-- The error is the one that a resolver gave, at the place of its field. -/
def Report.GivenBy (resolutions : List Resolution) (report : Report) : Prop :=
  ∃ resolution ∈ resolutions, ∃ error : ResolverError, resolution.outcome = .error error ∧
    report = Reportable.report error (some resolution.path)

/-- The error does not say that a type of the schema is no output type,
unless a resolver says so. -/
def Report.SparesTypes (resolutions : List Resolution) (report : Report) : Prop :=
  report.GivenBy resolutions ∨
    ∀ name, report.code? ≠ some (Reportable.code (CompletionError.notAnOutputType name))

theorem Report.SparesTypes.mono {resolutions more : List Resolution} {report : Report}
    (spares : report.SparesTypes resolutions) (kept : resolutions ⊆ more) : report.SparesTypes more := by
  refine spares.imp_left ?_
  rintro ⟨resolution, member, given⟩
  exact ⟨resolution, kept member, given⟩

theorem Report.sparesTypes_of_code {ε : Type} [Reportable ε] {error : ε} {path : Option Path}
    {resolutions : List Resolution} (other : Reportable.code error ≠ "INVALID_OUTPUT_TYPE") :
    (Reportable.report error path).SparesTypes resolutions := by
  refine .inr fun name same => other ?_
  rw [code?_report] at same
  exact Option.some.inj same

theorem ArgumentError.code_ne (error : ArgumentError) : Reportable.code error ≠ "INVALID_OUTPUT_TYPE" := by
  cases error <;> simp [Reportable.code]

theorem RequestError.code_ne (error : RequestError) : Reportable.code error ≠ "INVALID_OUTPUT_TYPE" := by
  cases error <;> simp [Reportable.code]

namespace Schema

variable {ρ : Type} {schema : Schema ρ}

theorem Registered.object_of_resolveConcrete (registered : schema.Registered) {interface : InterfaceType ρ}
    {value : Value} {concrete : String} (resolved : schema.resolveConcrete interface value = .ok concrete) :
    ∃ type, schema.lookup? concrete = some (.object type) := by
  obtain ⟨type, found, _⟩ :=
    registered.declares_of_implementor (mem_implementorsOf_of_resolveConcrete resolved)
  exact ⟨type, found⟩

/-- A value of an output type has no object type only if no implementor of
its interface claims it. -/
theorem Registered.unresolved_of_concreteType? (registered : schema.Registered) {name : String}
    (isOutput : schema.IsOutput (.named name)) {value : Value} {path : Path} {report : Report}
    (failed : schema.concreteType? name value path = .error report) :
    ∃ error : TypeResolutionError, report = Reportable.report error (some path) := by
  obtain ⟨target, found, isOutput⟩ := isOutput
  rw [TypeRef.innerName] at found
  cases target with
  | scalar name => simp [concreteType?, found] at failed
  | object type => simp [concreteType?, found] at failed
  | inputObject input => cases isOutput
  | interface interface =>
    simp only [concreteType?, found] at failed
    split at failed
    · next concrete resolved =>
      obtain ⟨type, known⟩ := registered.object_of_resolveConcrete resolved
      simp [known] at failed
    · next error _ =>
      cases failed
      exact ⟨error, rfl⟩

theorem object_of_concreteType? {name : String} {value : Value} {path : Path} {type : ObjectType ρ}
    (found : schema.concreteType? name value path = .ok (some type)) :
    ∃ own, schema.lookup? own = some (.object type) := by
  simp only [concreteType?] at found
  split at found
  · cases found
  · next own =>
    cases found
    exact ⟨name, own⟩
  · split at found
    · next concrete _ =>
      split at found
      · next own =>
        cases found
        exact ⟨concrete, own⟩
      · cases found
    · cases found
  all_goals cases found

theorem isOutput_of_field? (valid : schema.validate = .ok ()) {own name : String} {type : ObjectType ρ}
    (found : schema.lookup? own = some (.object type)) {field : FieldDef ρ}
    (declared : type.field? name = some field) :
    schema.IsOutput field.type :=
  have member : field ∈ TypeDef.fields (.object type) := List.mem_of_find?_eq_some declared
  ((valid_of_validate valid (Entries.mem_values_of_get? found)).1 field member).type

end Schema

variable {ρ : Type} {schema : Schema ρ}

variable (schema) in
/-- Objects are of registered types, and values are completed as output types. -/
def Subject.Typed : Subject ρ → Prop
  | .object type _ _ | .group type _ _ => ∃ own, schema.lookup? own = some (.object type)
  | .place _ type _ | .content _ type _ => schema.IsOutput type

theorem sparesTypes_fieldFailure {type : TypeRef} {report : Report} {resolutions : List Resolution}
    (spares : report.SparesTypes resolutions) :
    ∀ error ∈ (Run.fieldFailure type report).errors, error.SparesTypes resolutions := by
  unfold Run.fieldFailure
  split <;> exact List.forall_mem_singleton.mpr spares

theorem sparesTypes_nullError (parentType field : String) (inner : TypeRef) (path : Path)
    (resolutions : List Resolution) : (Run.nullError parentType field inner path).SparesTypes resolutions := by
  unfold Run.nullError
  split <;> exact Report.sparesTypes_of_code (by simp [Reportable.code])

theorem sparesTypes_parts {accounts : List Account}
    (each : ∀ account ∈ accounts, ∀ error ∈ account.completed.errors, error.SparesTypes account.resolutions) :
    ∀ error ∈ (accounts.map fun account => account.completed.errors).flatten,
      error.SparesTypes (accounts.flatMap Account.resolutions) := by
  intro error member
  rw [← List.flatMap_def] at member
  obtain ⟨account, listed, member⟩ := List.mem_flatMap.mp member
  exact (each account listed error member).mono fun _ known => List.mem_flatMap.mpr ⟨account, listed, known⟩

theorem Rejects.sparesTypes {site : FieldSite} {type : TypeRef} {value : Value} {path : Path} {report : Report}
    (rejects : Rejects schema site type value path report) (registered : schema.Registered)
    (isOutput : schema.IsOutput type) (resolutions : List Resolution) : report.SparesTypes resolutions := by
  cases rejects with
  | notList | notObject | notLeaf => exact Report.sparesTypes_of_code (by simp [Reportable.code])
  | noType _ failed =>
    obtain ⟨error, rfl⟩ := registered.unresolved_of_concreteType? isOutput failed
    exact Report.sparesTypes_of_code (by simp [Reportable.code])

/-- Whatever resolvers give, no error of a part finds fault with the
types of a valid schema. -/
theorem Executes.sparesTypes {variableValues : Object} {subject : Subject ρ} {path : Path} {account : Account}
    (executes : Executes schema variableValues subject path account) (registered : schema.Registered)
    (valid : schema.validate = .ok ()) (typed : subject.Typed schema) :
    ∀ error ∈ account.completed.errors, error.SparesTypes account.resolutions := by
  -- by the rules of execution, each of which keeps subjects typed: validation
  -- covers all fields they go through
  induction executes with
  | @object type selections parent path accounts length _ ih =>
    rw [Account.errors_ofFields]
    refine sparesTypes_parts fun account member => ?_
    obtain ⟨n, group, atGroup, atAccount⟩ := exists_beside length member
    exact ih n group account atGroup atAccount typed
  | typename _ => exact nofun
  | badArguments _ _ _ => exact sparesTypes_fieldFailure (Report.sparesTypes_of_code (ArgumentError.code_ne _))
  | unresolved _ _ _ => exact sparesTypes_fieldFailure (.inl ⟨_, .head _, _, rfl, rfl⟩)
  | resolved _ declared _ _ ih =>
    obtain ⟨own, found⟩ := typed
    intro error member
    exact (ih (Schema.isOutput_of_field? valid found declared) error member).mono (List.subset_cons_self _ _)
  | @strict site inner value path account _ ih =>
    have inside := ih typed
    unfold Completed.refuseNull
    split
    · exact List.forall_mem_append.mpr
        ⟨inside, List.forall_mem_singleton.mpr (sparesTypes_nullError _ _ _ _ _)⟩
    · exact inside
  | lenient _ _ ih => exact ih typed
  | null => exact nofun
  | wrapped _ _ ih => exact ih typed
  | @list site inner path items accounts length _ ih =>
    rw [Account.errors_ofItems]
    refine sparesTypes_parts fun account member => ?_
    obtain ⟨n, item, atItem, atAccount⟩ := exists_beside length member
    exact ih n item account atItem atAccount typed
  | scalar _ _ => exact nofun
  | named found _ ih => exact ih (Schema.object_of_concreteType? found)
  | leaf _ _ => exact nofun
  | rejected rejects => exact List.forall_mem_singleton.mpr (rejects.sparesTypes registered typed _)

namespace Position

variable {resolutions : List Resolution} {path rest : Path} {position next : Position} {element : PathElement}

theorem isOutput_of_step? (valid : schema.validate = .ok ()) (isOutput : schema.IsOutput position.type)
    (reached : position.step? schema resolutions path element = some next) : schema.IsOutput next.type := by
  cases element with
  | index n =>
    simp only [step?, item?] at reached
    split at reached
    · next inner items list _ =>
      obtain ⟨item, _, rfl⟩ := Option.map_eq_some_iff.mp reached
      rwa [Schema.IsOutput, TypeRef.innerName_of_nullable list]
    · cases reached
  | key key =>
    simp only [step?, field?] at reached
    split at reached
    · split at reached
      · next type found =>
        obtain ⟨group, _, reached⟩ := Option.bind_eq_some_iff.mp reached
        split at reached
        · cases reached
        · obtain ⟨field, declared, rfl⟩ := Option.map_eq_some_iff.mp reached
          obtain ⟨own, registeredAs⟩ := Schema.object_of_concreteType? found
          exact Schema.isOutput_of_field? valid registeredAs declared
      · cases reached
    · cases reached

theorem isOutput_of_walk? (valid : schema.validate = .ok ()) (isOutput : schema.IsOutput position.type)
    (reached : position.walk? schema resolutions path rest = some next) : schema.IsOutput next.type := by
  induction rest generalizing position path with
  | nil =>
    cases reached
    exact isOutput
  | cons element rest ih =>
    obtain ⟨middle, first, reached⟩ := Option.bind_eq_some_iff.mp reached
    exact ih (isOutput_of_step? valid isOutput first) reached

end Position

namespace Schema

variable {σ : Type} {schema : Schema σ} {settings : ExecutionSettings} {request : Request} {root : Value}
  {state : σ}

/-- A request that is refused is refused for what it asks for. -/
theorem report_of_prepare {report : Report} (refused : schema.prepare settings request root = .error report) :
    (∃ error : RequestError, report = Reportable.report error none) ∨
      ∃ (error : ArgumentError) (path : Path), report = Reportable.report error (some path) := by
  simp only [prepare] at refused
  split at refused
  · cases refused
    exact .inl ⟨_, rfl⟩
  · split at refused
    · cases refused
      exact .inl ⟨_, rfl⟩
    · split at refused
      · next invalid =>
        cases refused
        obtain ⟨group, _, invalid⟩ := List.exists_of_findSome?_eq_some invalid
        obtain ⟨selected, _, invalid⟩ := List.exists_of_findSome?_eq_some invalid
        dsimp only at invalid
        split at invalid
        · cases invalid
        · split at invalid
          · cases invalid
          · cases invalid
            exact .inr ⟨_, _, rfl⟩
      · cases refused

theorem sparesTypes_of_prepare {report : Report} (refused : schema.prepare settings request root = .error report)
    (resolutions : List Resolution) : report.SparesTypes resolutions := by
  rcases report_of_prepare refused with ⟨error, rfl⟩ | ⟨error, path, rfl⟩
  · exact Report.sparesTypes_of_code error.code_ne
  · exact Report.sparesTypes_of_code error.code_ne

theorem sparesTypes_of_no_data (failed : (schema.execute settings request root state).1.data = none)
    (resolutions : List Resolution) :
    ∀ error ∈ (schema.execute settings request root state).1.errors, error.SparesTypes resolutions := by
  simp only [execute] at failed ⊢
  split at failed
  · next refused => exact List.forall_mem_singleton.mpr (sparesTypes_of_prepare refused resolutions)
  · split at failed
    · cases failed
    · next deadline _ =>
      split at failed
      · cases failed
      · exact List.forall_mem_singleton.mpr (Report.sparesTypes_of_code (RequestError.code_ne _))

/-- On a valid schema no error of a response says that a type is no output
type, except where a resolver says so itself. The places that a request
reaches have registered types of output kinds, and interfaces resolve to
registered object types. -/
theorem output_types_hold (registered : schema.Registered) (valid : schema.validate = .ok ()) :
    (∀ error ∈ (schema.execute settings request root state).1.errors,
      error.SparesTypes (schema.resolutions settings request root state)) ∧
    (∀ type, schema.rootType? request.operation = some type → ∀ path position,
      schema.position? settings request root state path = some position → schema.IsOutput position.type) ∧
    ∀ interface value concrete, schema.resolveConcrete interface value = .ok concrete →
      ∃ type, schema.lookup? concrete = some (.object type) := by
  refine ⟨?_, fun type found path position reached => ?_,
    fun interface value concrete => registered.object_of_resolveConcrete⟩
  · cases answered : (schema.execute settings request root state).1.data with
    | none => exact sparesTypes_of_no_data answered _
    | some data =>
      obtain ⟨type, account, found, executes, log, _, errors⟩ := account_of_data answered
      rw [errors]
      intro error member
      exact (executes.sparesTypes registered valid ⟨_, rootType?_eq_some.mp found⟩ error member).mono
        log.symm.subset
  · have isOutput : schema.IsOutput (.named (schema.rootTypeName request.operation)) :=
      ⟨_, rootType?_eq_some.mp found, rfl⟩
    exact Position.isOutput_of_walk? valid isOutput reached

/-- An interface with one object type, and a field with a list of its values. -/
def shelfTypes : List (TypeDef Unit) := [
  .interface { name := "Item", fields := [{ name := "title", type := .nonNull (.builtIn .string) }] },
  .object { name := "Book", interfaces := ["Item"], fields := [
    { name := "title", type := .nonNull (.builtIn .string) }] },
  .object { name := "Query", fields := [{ name := "shelf", type := .list (.named "Item") }] }]

def shelfSchema : Schema Unit := shelfTypes.foldl .insert .empty

def shelfRequest : Request where
  selectionSet := [.field { name := "shelf" } [.field { name := "title" } []]]

def shelfRoot : Value := .object [("shelf", .list [
  .object [("__typename", .string "Book"), ("title", .string "Emma")],
  .object [("__typename", .string "Vase")]])]

/-- No object type is that of the second item, which is no fault of the types. -/
theorem output_types_hold_shelf : shelfSchema.Registered ∧ shelfSchema.validate = .ok () ∧
    (shelfSchema.execute {} shelfRequest shelfRoot ()).1.errors.map Report.code? = [some "TYPE_RESOLUTION_FAILED"] ∧
    (∀ error ∈ (shelfSchema.execute {} shelfRequest shelfRoot ()).1.errors,
      error.SparesTypes (shelfSchema.resolutions {} shelfRequest shelfRoot ())) ∧
    ∃ position, shelfSchema.position? {} shelfRequest shelfRoot () [.key "shelf", .index 0] = some position ∧
      shelfSchema.IsOutput position.type := by
  have registered : shelfSchema.Registered :=
    Registered.empty.registerAll (show empty.registerAll shelfTypes = .ok shelfSchema from rfl)
  have valid : shelfSchema.validate = .ok () := rfl
  obtain ⟨spared, reached, _⟩ := @output_types_hold Unit shelfSchema {} shelfRequest shelfRoot () registered valid
  exact ⟨registered, valid, rfl, spared, _, rfl, reached _ rfl [.key "shelf", .index 0] _ rfl⟩

end Schema

end SelectionEngine
