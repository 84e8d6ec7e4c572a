import SelectionEngine.Proofs.Execution.Determinism
import SelectionEngine.Proofs.Execution.ErrorOrder
import SelectionEngine.Proofs.Execution.RelabeledData

namespace SelectionEngine

variable {ρ : Type}

/-- Whether an object at a place is made of selected fields. Values of a
registered scalar are not. -/
def Position.hasFields (schema : Schema ρ) (position : Position) : Bool :=
  match position.type.nullable with
  | .named name => match schema.lookup? name with
    | some (.object _) | some (.interface _) => true
    | some (.scalar _) | some (.inputObject _) | none => false
  | .builtIn _ | .list _ | .nonNull _ => false

/-- Whether the objects at a path of a response are made of selected fields. -/
def Schema.hasFieldsAt (schema : Schema ρ) (position? : Path → Option Position) (path : Path) : Bool :=
  (position? path).any (Position.hasFields schema)

def FieldSite.relabel (r : String → String) (site : FieldSite) : FieldSite :=
  { site with selections := Selection.mapCallsAll (FieldCall.relabel r) site.selections }

namespace Subject

/-- The subject with other keys in what is selected on it. -/
def relabel (r : String → String) : Subject ρ → Subject ρ
  | object type selections parent => object type (Selection.mapCallsAll (FieldCall.relabel r) selections) parent
  | group type parent fields => group type parent (fields.mapCalls (FieldCall.relabel r) r)
  | place site type value => place (site.relabel r) type value
  | content site type value => content (site.relabel r) type value

/-- Where the value of a subject goes. The fields of a group are worked on at
the path of their object. -/
def destination (path : Path) : Subject ρ → Path
  | group _ _ fields => path.join (.key fields.key)
  | object _ _ _ | place _ _ _ | content _ _ _ => path

end Subject

section

variable {schema : Schema ρ} {position? : Path → Option Position} {path : Path} {position : Position}
  {name : String}

theorem Position.hasFields_of_concreteType? {value : Value} {type : ObjectType ρ}
    (named : position.type.nullable = .named name)
    (found : schema.concreteType? name value path = .ok (some type)) :
    position.hasFields schema = true := by
  rw [Position.hasFields, named]
  simp only [Schema.concreteType?] at found
  split at found
  · cases found
  · next own => simp only [own]
  · next own => simp only [own]
  · cases found
  · cases found

theorem Position.hasFields_of_scalar {scalar : String} (named : position.type.nullable = .named name)
    (own : schema.lookup? name = some (.scalar scalar)) : position.hasFields schema = false := by
  rw [Position.hasFields, named]
  simp only [own]

variable {r : String → String}

theorem Rejects.relabel {site : FieldSite} {type : TypeRef} {value : Value} {report : Report}
    (rejects : Rejects schema site type value path report) :
    Rejects schema (site.relabel r) type value (path.relabel r) (report.relabel r) := by
  cases rejects with
  | notList present other => exact .notList present other
  | notObject present other found =>
    exact .notObject present other (by rw [Schema.concreteType?_relabel, found]; rfl)
  | noType present failed => exact .noType present (by rw [Schema.concreteType?_relabel, failed]; rfl)
  | notLeaf present missing => exact .notLeaf present missing

theorem reported_relabel {ε : Type} [Reportable ε] (error : ε) (path : Path) (key : String) :
    (Reportable.report error (some (path.join (.key key)))).relabel r =
      Reportable.report error (some ((path.relabel r).join (.key (r key)))) :=
  congrArg (fun place => Reportable.report error (some place)) (Path.relabel_join path (.key key))

theorem resolution_relabel (group : FieldGroup) (type : ObjectType ρ) (field : FieldDef ρ) (parent : Value)
    (path : Path) (arguments : Object) (outcome : Except ResolverError Value) :
    Resolution.relabel r ⟨group.info type field parent path arguments, outcome⟩ =
      ⟨(group.mapCalls (FieldCall.relabel r) r).info type field parent (path.relabel r) arguments, outcome⟩ := by
  simp only [Resolution.relabel, ResolveInfo.relabel, FieldGroup.info, Path.relabel_join]
  rfl

variable {variableValues : Object} {resolutions : List Resolution} (injective : Function.Injective r)
  (steps : ∀ path element, position? (path.join element) =
    (position? path).bind fun position => position.step? schema resolutions path element)

include steps

/-- No fields are selected in a value of a registered scalar. -/
theorem hasFieldsAt_of_scalar {scalar : String} (atPath : position? path = some position)
    (named : position.type.nullable = .named name) (own : schema.lookup? name = some (.scalar scalar))
    (rest : Path) :
    schema.hasFieldsAt position? (path ++ rest) = false := by
  cases rest with
  | nil =>
    rw [List.append_nil, Schema.hasFieldsAt, atPath]
    exact Position.hasFields_of_scalar named own
  | cons element rest =>
    have inside : InsideScalar position? schema (path ++ element :: rest) :=
      ⟨path, position, name, scalar, List.prefix_append _ _, by simp, atPath, named, own⟩
    rw [Schema.hasFieldsAt, position?_of_insideScalar steps inside]
    rfl

include injective

/-- The rules are the same for other keys. -/
theorem Executes.relabel {subject : Subject ρ} {account : Account}
    (executes : Executes schema variableValues subject path account)
    (recorded : ∀ resolution ∈ account.resolutions,
      Resolution.valueAt? resolutions resolution.path = resolution.outcome.toOption)
    (located : subject.Located schema position? resolutions path) :
    Executes schema variableValues (subject.relabel r) (path.relabel r)
      (account.relabel r (schema.hasFieldsAt position?) (subject.destination path)) := by
  induction executes with
  | @object type selections parent path accounts length _ ih =>
    -- an injective change of keys keeps the groups and their order
    obtain ⟨position, name, value, atPath, named, raw, found, same⟩ := located
    have here : schema.hasFieldsAt position? path = true := by
      rw [Schema.hasFieldsAt, atPath]
      exact Position.hasFields_of_concreteType? named found
    have placed := placed_fields steps atPath named raw found
    rw [same] at placed
    have groups := schema.fieldGroups_mapCalls type (FieldCall.rekeys_relabel injective) selections
    have keys :
        (schema.fieldGroups type (Selection.mapCallsAll (FieldCall.relabel r) selections)).map FieldGroup.key =
          ((schema.fieldGroups type selections).map FieldGroup.key).map r := by
      rw [groups, List.map_map, List.map_map]
      rfl
    have sameLength : accounts.length = ((schema.fieldGroups type selections).map FieldGroup.key).length := by
      rw [List.length_map, length]
    rw [Subject.destination, Account.relabel_ofFields here sameLength, ← keys]
    refine .object ?_ fun n group account atGroup atAccount => ?_
    · rw [Account.length_relabelParts (by rw [List.length_map, sameLength]), groups, List.length_map, length]
    · rw [groups, List.getElem?_map] at atGroup
      obtain ⟨own, atOwn, rfl⟩ := Option.map_eq_some_iff.mp atGroup
      obtain ⟨element, part, atElement, atPart, rfl⟩ := List.getElem?_zipWith_eq_some.mp atAccount
      obtain rfl : PathElement.key own.key = element := by simpa [atOwn] using atElement
      exact ih n own part atOwn atPart
        (fun resolution member => recorded resolution
          (List.mem_flatMap.mpr ⟨part, List.mem_of_getElem? atPart, member⟩))
        (placed own (List.mem_of_getElem? atOwn))
  | typename named => exact .typename named
  | @badArguments type parent group path field error notTypename declared failed =>
    rw [Account.relabel, Completed.relabel_fieldFailure, reported_relabel]
    exact .badArguments notTypename declared failed
  | @unresolved type parent group path field arguments error notTypename declared coerced =>
    rw [Account.relabel, Completed.relabel_fieldFailure, reported_relabel, List.map_singleton,
      resolution_relabel]
    exact .unresolved notTypename declared coerced
  | @resolved type parent group path field arguments value account notTypename declared coerced _ ih =>
    have atPath := located notTypename field declared
    have known := recorded _ (.head _)
    have below :=
      ih (fun resolution member => recorded resolution (.tail _ member)) ⟨_, atPath, ⟨known, rfl, rfl⟩, rfl⟩
    rw [Subject.relabel, FieldSite.relabel, ← FieldGroup.selections_mapCalls, Path.relabel_join] at below
    rw [Account.relabel, List.map_cons, resolution_relabel]
    exact @Executes.resolved _ _ _ _ _ (group.mapCalls (FieldCall.relabel r) r) _ _ _ _ _ notTypename
      declared coerced below
  | @strict site inner value path account _ ih =>
    obtain ⟨position, atPath, holds, strict⟩ := located
    have inside := ih recorded ⟨position, atPath, ⟨holds.raw, holds.selections, holds.nullable⟩, fun _ => strict⟩
    rw [Account.relabel, Completed.relabel_refuseNull, ← Run.nullError_relabel]
    exact .strict inside
  | @lenient site type value path account nullable _ ih =>
    obtain ⟨position, atPath, holds, same⟩ := located
    have inside := ih recorded ⟨position, atPath, holds, fun strict => same.trans strict⟩
    rw [Account.relabel, Completed.relabel_absorb]
    exact .lenient nullable inside
  | null => exact .null
  | @wrapped site inner value path account present _ ih =>
    obtain ⟨position, atPath, holds, strict⟩ := located
    exact .wrapped present (ih recorded ⟨position, atPath, holds, strict rfl⟩)
  | @list site inner path items accounts length _ ih =>
    obtain ⟨position, atPath, holds, _⟩ := located
    rw [Subject.destination, Account.relabel_ofItems]
    refine .list ?_ fun n item account atItem atAccount => ?_
    · rw [Account.length_relabelParts (by simp), length]
    · obtain ⟨element, part, atElement, atPart, rfl⟩ := List.getElem?_zipWith_eq_some.mp atAccount
      obtain ⟨inRange, rfl⟩ : n < accounts.length ∧ PathElement.index n = element := by
        simpa [List.getElem?_eq_some_iff] using atElement
      have below := ih n item part atItem atPart
        (fun resolution member => recorded resolution
          (List.mem_flatMap.mpr ⟨part, List.mem_of_getElem? atPart, member⟩))
        ⟨_, placed_item steps atPath holds.nullable holds.raw atItem, ⟨rfl, holds.selections, rfl⟩, rfl⟩
      rwa [Path.relabel_join] at below
  | @scalar site name value path present found =>
    -- the value may hold objects, but none of them is made of selected fields
    obtain ⟨position, atPath, holds, _⟩ := located
    obtain ⟨scalar, own⟩ := Schema.scalar_of_concreteType? found
    have unselected : value.relabel r (schema.hasFieldsAt position?) path = value :=
      Value.relabel_of_unselected value path (hasFieldsAt_of_scalar steps atPath holds.nullable own)
    simp only [Account.relabel, Completed.relabel, Completed.ok, Option.map_some, Subject.destination, unselected]
    exact .scalar present (by rw [Schema.concreteType?_relabel, found]; rfl)
  | @named site name type entries path account found _ ih =>
    obtain ⟨position, atPath, holds, _⟩ := located
    have below := ih recorded ⟨position, _, _, atPath, holds.nullable, holds.raw, found, holds.selections⟩
    exact .named (by rw [Schema.concreteType?_relabel, found]; rfl) below
  | leaf present completed =>
    simp only [Account.relabel, Completed.relabel, Completed.ok, Option.map_some,
      (BuiltIn.admits_of_complete? completed).relabel]
    exact .leaf present completed
  | rejected rejects => exact .rejected rejects.relabel

end

theorem AgreeOnOutcomes.of_perm {resolutions others : List Resolution} (permuted : resolutions.Perm others)
    (distinct : (others.map Resolution.path).Nodup) : AgreeOnOutcomes resolutions others :=
  fun _ member _ otherMember samePath =>
    congrArg Resolution.outcome
      (List.inj_on_of_nodup_map distinct (permuted.subset member) otherMember samePath)

namespace Schema

section

variable {σ : Type} {schema : Schema σ} {r : String → String} (ignores : schema.IgnoresPath)
  (injective : Function.Injective r) (settings : ExecutionSettings) (request : Request) (root : Value) (state : σ)

include ignores injective

/-- A request with other keys ends in the same state. It is refused or late as
the other one is, or both are answered. -/
theorem ended_relabel :
    (∃ report final, schema.execute settings request root state = (.ofError report, final) ∧
      schema.execute settings (request.relabel r) root state = (.ofError (report.relabel r), final)) ∨
    ∃ completed other final, schema.execute settings request root state = (respond completed, final) ∧
      schema.execute settings (request.relabel r) root state = (respond other, final) := by
  rcases prepare_relabel ignores settings request root injective with
    ⟨report, refused, refusedToo⟩ | ⟨task, other, accepted, acceptedToo, alongside⟩
  · simp only [execute, refused, refusedToo]
    exact .inl ⟨report, state, rfl, rfl⟩
  · simp only [execute, accepted, acceptedToo]
    cases settings.deadline with
    | none => exact .inr ⟨_, _, (task.run state).2, rfl, congrArg _ (alongside.run state).2⟩
    | some deadline =>
      have within := alongside.runWithin deadline.nanoseconds state
      simp only [id] at within ⊢
      generalize other.runWithin deadline.nanoseconds state = one at within
      generalize task.runWithin deadline.nanoseconds state = two at within
      obtain ⟨completed?, final⟩ := one
      obtain ⟨completed?', final'⟩ := two
      obtain ⟨ends, rfl⟩ : _ ∧ final = final' := within
      cases ends with
      | none => exact .inl ⟨_, final, rfl, rfl⟩
      | some _ => exact .inr ⟨_, _, final, rfl, rfl⟩

/-- What a request is answered with has the same values when its
fields have other keys. -/
theorem answered_relabel {data other : Value}
    (answered : (schema.execute settings request root state).1.data = some data)
    (answeredToo : (schema.execute settings (request.relabel r) root state).1.data = some other) :
    other = data.relabel r (schema.hasFieldsAt (schema.position? settings request root state)) [] ∧
      (schema.execute settings (request.relabel r) root state).1.errors =
        (schema.execute settings request root state).1.errors.map (Report.relabel r) := by
  obtain ⟨type, account, found, executes, log, rfl, errors⟩ := account_of_data answered
  obtain ⟨type', account', found', executes', log', rfl, errors'⟩ := account_of_data answeredToo
  obtain rfl := Option.some.inj (found.symm.trans found')
  have relabeled := executes.relabel injective position?_join (executes.recorded log) (located_root found)
  rw [resolutions_relabel ignores settings request root injective state] at log'
  -- both accounts have the same outcome for each field, and that
  -- leaves only one of them
  have permuted := log'.symm.trans (log.map (Resolution.relabel r))
  obtain rfl := executes'.unique relabeled (.of_perm permuted relabeled.paths.1)
  refine ⟨?_, errors'.trans (congrArg _ errors).symm⟩
  rcases account with ⟨⟨_ | value, _⟩, _⟩ <;> rfl

end

/-- Other keys for fields change nothing but the keys in a response. -/
theorem execute_relabel {σ : Type} {schema : Schema σ} (ignores : schema.IgnoresPath) {r : String → String}
    (injective : Function.Injective r) (settings : ExecutionSettings) (request : Request)
    (root : Value) (state : σ) :
    schema.execute settings (request.relabel r) root state =
      ((schema.execute settings request root state).1.relabel r
        (schema.hasFieldsAt (schema.position? settings request root state)),
      (schema.execute settings request root state).2) := by
  rcases ended_relabel ignores injective settings request root state with
    ⟨report, final, refused, refusedToo⟩ | ⟨completed, other, final, answered, answeredToo⟩
  · rw [refused, refusedToo]
    rfl
  · have same := answered_relabel ignores injective settings request root state
      (congrArg (Response.data ∘ Prod.fst) answered) (congrArg (Response.data ∘ Prod.fst) answeredToo)
    rw [answered, answeredToo] at same ⊢
    simp only [Response.relabel, respond, same.1, Option.map_some] at same ⊢
    rw [same.2]

/-- Ships with cargo of any kind and captains who are counted
when they are asked for. -/
def harborTypes : List (TypeDef Nat) := [
  .scalar "Cargo",
  .object { name := "Ship", fields := [
    { name := "name", type := .builtIn .string },
    { name := "cargo", type := .named "Cargo" },
    { name := "captain", type := .nonNull (.builtIn .string)
      resolver := some (.acting fun info count =>
        (.ofExcept ((info.parent.property? "captain").elim (.error ⟨"no captain", []⟩) .ok), count + 1)) }] },
  .object { name := "Query", fields := [{ name := "ships", type := .list (.named "Ship") }] }]

def harborSchema : Schema Nat := harborTypes.foldl .insert .empty

theorem harborSchema_ignoresPath : harborSchema.IgnoresPath := by
  intro type field resolver found info path
  by_cases ship : "Ship" = type
  · subst ship
    by_cases captain : "captain" = field
    · subst captain
      cases found
      rfl
    · simp [resolver?, harborSchema, harborTypes, insert, empty, boundFields, Entries.set, Entries.get?, captain]
        at found
  · have unbound : harborSchema.resolver? type field = none := by
      by_cases query : "Query" = type
      · subst query
        rfl
      · simp [resolver?, harborSchema, harborTypes, insert, empty, boundFields, Entries.set,
          Entries.get?, ship, query]
    cases unbound.symm.trans found

def harborRequest : Request where
  selectionSet := [.field { name := "ships" } [
    .field { name := "name" } [], .fragment none [.field { name := "cargo", label := some "freight" } []],
    .field { name := "captain" } []]]

def harborRoot : Value :=
  .object [("ships", .list [
    .object [("name", .string "Argo"), ("cargo", .object [("name", .string "fleece")]),
      ("captain", .string "Jason")],
    .object [("name", .string "Drift")]])]

theorem underscored_injective : Function.Injective fun key => "_" ++ key := by
  intro one two same
  simpa using same

/-- The cargo keeps the key in it, and a captain is not found
under another one. -/
theorem execute_relabel_harbor :
    harborSchema.IgnoresPath ∧ Function.Injective (fun key => "_" ++ key) ∧
    harborSchema.execute {} (harborRequest.relabel fun key => "_" ++ key) harborRoot 0 =
      ((harborSchema.execute {} harborRequest harborRoot 0).1.relabel (fun key => "_" ++ key)
        (harborSchema.hasFieldsAt (harborSchema.position? {} harborRequest harborRoot 0)),
      (harborSchema.execute {} harborRequest harborRoot 0).2) ∧
    harborSchema.execute {} (harborRequest.relabel fun key => "_" ++ key) harborRoot 0 =
      ({ data := some (.object [("_ships", .list [
          .object [("_name", .string "Argo"), ("_freight", .object [("name", .string "fleece")]),
            ("_captain", .string "Jason")], .null])])
         errors := [Reportable.report (ResolverError.mk "no captain" [])
          (some [.key "_ships", .index 1, .key "_captain"])] }, 2) :=
  ⟨harborSchema_ignoresPath, underscored_injective,
    execute_relabel harborSchema_ignoresPath underscored_injective {} harborRequest harborRoot 0, by decide +kernel⟩

end Schema

end SelectionEngine
