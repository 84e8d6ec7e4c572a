import SelectionEngine.Proofs.Schema.Acceptance

namespace SelectionEngine.Schema

variable {σ : Type}

/-- Work on a schema in place. A fault ends it, and the schema
stays as it is by then. -/
abbrev Work (σ α : Type) := ExceptT SchemaError (StateM (Schema σ)) α

namespace Work

/-- How the work on a schema ends, and what has become of the schema. -/
def outcome {α : Type} (work : Work σ α) (schema : Schema σ) : Except SchemaError α × Schema σ :=
  work.run.run schema

/-- Checks the schema as it is now. -/
def ensure (check : Schema σ → Except SchemaError Unit) : Work σ Unit :=
  ExceptT.mk fun schema => (check schema, schema)

/-- The checks on a type, in their order. -/
def checkType : TypeDef σ → Work σ Unit
  | .scalar _ => return
  | .object type => do
    ensure fun _ => checkFields type.name type.fields
    type.interfaces.forM fun interface => ensure fun schema => schema.checkImplementation type interface
  | .interface type => ensure fun _ => checkFields type.name type.fields
  | .inputObject type => do
    ensure fun _ => checkUnique type.name (type.fields.map ArgumentDef.name)
    type.fields.forM fun field => ensure fun _ => Schema.checkType field.type

/-- The schema with an object type listed under one more interface. -/
def withImplementor (object : String) (schema : Schema σ) (interface : String) : Schema σ :=
  { schema with implementors := addImplementor object schema.implementors interface }

/-- The schema with the table of the resolvers of one type. -/
def withBound (object : String) (schema : Schema σ) (bound : Entries String (Resolver σ)) : Schema σ :=
  { schema with resolvers := Entries.set object bound schema.resolvers }

/-- Keeps the resolver of a field, if it has one, with the others of its type. -/
def bindField (object : String) (field : FieldDef σ) : Work σ Unit :=
  match field.resolver with
  | none => return
  | some resolver => modify fun schema =>
    withBound object schema (Entries.set field.name resolver ((Entries.get? object schema.resolvers).getD []))

/-- Enters a type, one thing after another. -/
def enterType (type : TypeDef σ) : Work σ Unit := do
  if let .object object := type then
    object.interfaces.forM fun interface => modify fun schema => withImplementor object.name schema interface
    modify fun schema => withBound object.name schema []
    object.fields.forM (bindField object.name)
  modify fun schema => { schema with types := Entries.set type.name type schema.types }

/-- Registers a type. All checks come first, and each may end it. -/
def register (type : TypeDef σ) : Work σ Unit := do
  ensure fun schema =>
    if Entries.contains schema.types type.name then .error (.duplicateType type.name) else .ok ()
  checkType type
  enterType type

variable {α β : Type} {schema : Schema σ}

theorem outcome_bind (work : Work σ α) (next : α → Work σ β) (schema : Schema σ) :
    (work >>= next).outcome schema = match work.outcome schema with
      | (.ok a, changed) => (next a).outcome changed
      | (.error fault, changed) => (.error fault, changed) := by
  rw [outcome, ExceptT.run_bind, StateT.run_bind]
  simp only [outcome, bind]
  rcases work.run.run schema with ⟨_ | a, changed⟩ <;> rfl

theorem outcome_ensure (check : Schema σ → Except SchemaError Unit) (schema : Schema σ) :
    (ensure check).outcome schema = (check schema, schema) := rfl

theorem outcome_modify (change : Schema σ → Schema σ) (schema : Schema σ) :
    (modify change : Work σ Unit).outcome schema = (.ok (), change schema) := rfl

/-- Checks in turn leave the schema alone and end like the checks
of it as it was. -/
theorem outcome_forM_ensure {ι : Type} (check : ι → Schema σ → Except SchemaError Unit) (items : List ι)
    (schema : Schema σ) : (items.forM fun item => ensure (check item)).outcome schema =
      (items.forM fun item => check item schema, schema) := by
  induction items with
  | nil => rfl
  | cons item items ih =>
    rw [List.forM, outcome_bind, outcome_ensure, List.forM]
    cases check item schema with
    | error fault => rfl
    | ok _ => exact ih

theorem outcome_checkType (type : TypeDef σ) (schema : Schema σ) :
    (checkType type).outcome schema = (schema.check type, schema) := by
  cases type with
  | scalar name => rfl
  | interface type => rfl
  | object type =>
    simp only [checkType, check, outcome_bind, outcome_ensure, outcome_forM_ensure]
    cases checkFields type.name type.fields <;> rfl
  | inputObject type =>
    simp only [checkType, check, outcome_bind, outcome_ensure, outcome_forM_ensure]
    cases checkUnique type.name (type.fields.map ArgumentDef.name) <;> rfl

/-- Entries made in turn change the schema one after another. -/
theorem outcome_forM {ι : Type} {entry : ι → Work σ Unit} {change : Schema σ → ι → Schema σ}
    (each : ∀ item schema, (entry item).outcome schema = (.ok (), change schema item)) (items : List ι)
    (schema : Schema σ) : (items.forM entry).outcome schema = (.ok (), items.foldl change schema) := by
  induction items generalizing schema with
  | nil => rfl
  | cons item items ih =>
    rw [List.forM, outcome_bind, each]
    exact ih (change schema item)

theorem foldl_withImplementor (object : String) (interfaces : List String) (schema : Schema σ) :
    interfaces.foldl (withImplementor object) schema =
      { schema with implementors := interfaces.foldl (addImplementor object) schema.implementors } := by
  induction interfaces generalizing schema with
  | nil => rfl
  | cons interface interfaces ih => exact ih (withImplementor object schema interface)

theorem outcome_bindField (object : String) (field : FieldDef σ) (bound : Entries String (Resolver σ))
    (schema : Schema σ) : (bindField object field).outcome (withBound object schema bound) =
      (.ok (), withBound object schema
        (field.resolver.elim bound fun resolver => Entries.set field.name resolver bound)) := by
  have known : (Entries.get? object (withBound object schema bound).resolvers).getD [] = bound := by
    rw [withBound, Entries.get?_set, if_pos rfl, Option.getD_some]
  rw [bindField]
  cases field.resolver with
  | none => rfl
  | some resolver =>
    have again := Entries.set_set object bound (Entries.set field.name resolver bound) schema.resolvers
    simp only [outcome_modify, known, Option.elim_some]
    rw [withBound, withBound, withBound, again]

/-- The resolvers of fields of different names are kept in the
order of the fields. -/
theorem outcome_forM_bindField {fields : List (FieldDef σ)} (distinct : (fields.map FieldDef.name).Nodup)
    (object : String) (schema : Schema σ) :
    (fields.forM (bindField object)).outcome (withBound object schema []) =
      (.ok (), withBound object schema (boundFields fields)) := by
  -- what is bound already belongs to other fields
  suffices general : ∀ bound : Entries String (Resolver σ),
      (∀ field ∈ fields, Entries.get? field.name bound = none) →
      (fields.forM (bindField object)).outcome (withBound object schema bound) =
        (.ok (), withBound object schema (bound ++ boundFields fields)) from general [] fun _ _ => rfl
  induction fields with
  | nil =>
    intro bound _
    rw [boundFields, List.filterMap_nil, List.append_nil]
    rfl
  | cons field fields ih =>
    intro bound fresh
    obtain ⟨absent, distinct⟩ := List.nodup_cons.mp distinct
    obtain ⟨new, others⟩ := List.forall_mem_cons.mp fresh
    rw [List.forM, outcome_bind, outcome_bindField]
    cases carried : field.resolver with
    | none =>
      have same : boundFields (field :: fields) = boundFields fields := by simp [boundFields, carried]
      rw [same]
      exact ih distinct bound others
    | some resolver =>
      have added : boundFields (field :: fields) = (field.name, resolver) :: boundFields fields := by
        simp [boundFields, carried]
      have still : ∀ other ∈ fields, Entries.get? other.name (Entries.set field.name resolver bound) = none := by
        intro other member
        have apart : field.name ≠ other.name := fun same => absent (List.mem_map.mpr ⟨other, member, same.symm⟩)
        rw [Entries.get?_set, if_neg apart, others other member]
      have step := ih distinct (Entries.set field.name resolver bound) still
      rw [Entries.set_of_get?_eq_none new, List.append_assoc] at step
      rw [added, Option.elim_some, Entries.set_of_get?_eq_none new]
      exact step

theorem outcome_enterType {type : TypeDef σ} (distinct : (type.fields.map FieldDef.name).Nodup)
    (schema : Schema σ) : (enterType type).outcome schema = (.ok (), schema.insert type) := by
  cases type with
  | object object =>
    have listed := outcome_forM
      (fun interface => outcome_modify fun schema => withImplementor object.name schema interface)
      object.interfaces schema
    have bound : ∀ schema, (object.fields.forM (bindField object.name)).outcome (withBound object.name schema []) =
        (.ok (), withBound object.name schema (boundFields object.fields)) :=
      outcome_forM_bindField distinct object.name
    simp only [enterType, outcome_bind, outcome_modify, listed, foldl_withImplementor, bound]
    rfl
  | _ => rfl

/-- Registration in place ends like registration, and what it
fails on stays as it was. -/
theorem outcome_register (type : TypeDef σ) (schema : Schema σ) :
    (register type).outcome schema = match schema.register type with
      | .ok extended => (.ok (), extended)
      | .error fault => (.error fault, schema) := by
  rw [register, outcome_bind, outcome_ensure, Schema.register]
  by_cases taken : Entries.contains schema.types type.name
  · simp only [if_pos taken]
  · simp only [if_neg taken, outcome_bind, outcome_checkType]
    cases checked : schema.check type with
    | error fault => rfl
    | ok _ => exact outcome_enterType (check_eq_ok.mp checked).1.fields schema

end Work

/-- A type is registered exactly if its name is new and it is well formed and
has the fields of the interfaces that it declares. Otherwise nothing of it stays
behind, although it is registered in place, so that attempts leave the schema
that the accepted ones alone make. -/
theorem register_exact (schema : Schema σ) :
    (∀ type, (∃ extended, schema.register type = .ok extended) ↔ schema.Registrable type) ∧
    (∀ type, (Work.register type).outcome schema = match schema.register type with
      | .ok extended => (.ok (), extended)
      | .error fault => (.error fault, schema)) ∧
    ∀ attempted : List (TypeDef σ),
      attempted.foldl (fun schema type => ((Work.register type).outcome schema).2) schema =
        schema.attemptAll attempted ∧
      schema.registerAll (schema.accepted attempted) = .ok (schema.attemptAll attempted) := by
  refine ⟨fun type => exists_register_iff, fun type => Work.outcome_register type schema, fun attempted => ⟨?_, ?_⟩⟩
  · have step (schema : Schema σ) (type : TypeDef σ) :
        ((Work.register type).outcome schema).2 = schema.attempt type := by
      rw [Work.outcome_register, attempt]
      cases schema.register type <;> rfl
    rw [attemptAll]
    simp only [step]
  · exact registerAll_accepted attempted

end SelectionEngine.Schema
