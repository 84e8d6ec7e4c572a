import SelectionEngine.Proofs.Definitions.Refused
import SelectionEngine.Proofs.Definitions.Soundness
import SelectionEngine.Proofs.Schema.Rereading

namespace SelectionEngine

open Definitions

variable {σ : Type}

theorem Definitions.FieldClause.unbound_of_declare {clause : FieldClause} {field : FieldDef σ}
    (known : clause.declare = .ok field) : field.unbound = field := by
  obtain ⟨arguments, _, rfl⟩ := map_eq_ok.mp known
  rfl

/-- Whether a text can declare a type: it can be written and has no behaviour. -/
def TypeDef.Declared (type : TypeDef σ) : Prop := type.Written ∧ type.unbound = type

namespace Declarations

structure Sound (declarations : Declarations σ) : Prop where
  scalars : ∀ name ∈ declarations.scalars, IsName name
  interfaces : ∀ type ∈ declarations.interfaces, (TypeDef.interface type).Declared
  inputs : ∀ type ∈ declarations.inputs, (TypeDef.inputObject type : TypeDef σ).Declared
  objects : ∀ type ∈ declarations.objects, (TypeDef.object type).Declared
  roots : ∀ root ∈ declarations.roots, IsName root.2

theorem sound_empty : ({} : Declarations σ).Sound := ⟨nofun, nofun, nofun, nofun, nofun⟩

theorem Sound.types {declarations : Declarations σ} (sound : declarations.Sound) :
    ∀ type ∈ declarations.types, type.Declared := by
  have scalars : ∀ name ∈ declarations.scalars, (TypeDef.scalar name : TypeDef σ).Declared :=
    fun name member => ⟨.scalar (sound.scalars name member), rfl⟩
  simp only [Declarations.types, List.forall_mem_append, List.forall_mem_map]
  exact ⟨⟨⟨scalars, sound.interfaces⟩, sound.inputs⟩, sound.objects⟩

theorem fields_declared {clauses : List FieldClause} (read : ∀ clause ∈ clauses, clause.Sound)
    {fields : List (FieldDef σ)} (known : clauses.mapM FieldClause.declare = .ok fields) :
    (∀ field ∈ fields, field.Written) ∧ fields.map FieldDef.unbound = fields := by
  have declared := exists_of_mapM known
  constructor
  · intro field member
    obtain ⟨clause, listed, knownField⟩ := declared field member
    exact read clause listed field knownField
  · have same : ∀ field ∈ fields, field.unbound = field := by
      intro field member
      obtain ⟨clause, _, knownField⟩ := declared field member
      exact clause.unbound_of_declare knownField
    rw [List.map_congr_left same, List.map_id']

/-- A sound definition adds what can be written. -/
theorem sound_add {declarations extended : Declarations σ} (sound : declarations.Sound) {definition : Definition}
    (read : definition.Sound) (added : declarations.add definition = .ok extended) : extended.Sound := by
  cases definition with
  | scalar name =>
    cases added
    exact { sound with scalars := List.forall_mem_append.mpr ⟨sound.scalars, List.forall_mem_singleton.mpr read⟩ }
  | object name interfaces clauses =>
    obtain ⟨fields, known, same⟩ := bind_eq_ok.mp added
    cases same
    obtain ⟨named, interfaceNames, clausesSound⟩ := read
    obtain ⟨written, unbound⟩ := fields_declared clausesSound known
    have declared : (TypeDef.object { name, fields, interfaces } : TypeDef σ).Declared :=
      ⟨.object named interfaceNames written, by simp [TypeDef.unbound, ObjectType.unbound, unbound]⟩
    exact { sound with objects :=
      List.forall_mem_append.mpr ⟨sound.objects, List.forall_mem_singleton.mpr declared⟩ }
  | interface name clauses =>
    obtain ⟨fields, known, same⟩ := bind_eq_ok.mp added
    cases same
    obtain ⟨named, clausesSound⟩ := read
    obtain ⟨written, unbound⟩ := fields_declared clausesSound known
    have declared : (TypeDef.interface { name, fields } : TypeDef σ).Declared :=
      ⟨.interface named written, by simp [TypeDef.unbound, InterfaceType.unbound, unbound]⟩
    exact { sound with
      interfaces := List.forall_mem_append.mpr ⟨sound.interfaces, List.forall_mem_singleton.mpr declared⟩ }
  | inputObject name clauses =>
    obtain ⟨fields, known, same⟩ := bind_eq_ok.mp added
    cases same
    obtain ⟨named, clausesSound⟩ := read
    have written : ∀ field ∈ fields, field.Written := by
      intro field member
      obtain ⟨clause, listed, knownField⟩ := exists_of_mapM known field member
      exact clausesSound clause listed field knownField
    have declared : (TypeDef.inputObject { name, fields } : TypeDef σ).Declared := ⟨.inputObject named written, rfl⟩
    exact { sound with inputs := List.forall_mem_append.mpr ⟨sound.inputs, List.forall_mem_singleton.mpr declared⟩ }
  | roots clauses =>
    obtain ⟨roots, known, same⟩ := bind_eq_ok.mp added
    cases same
    have named : ∀ root ∈ roots, IsName root.2 := by
      intro root member
      obtain ⟨clause, listed, knownRoot⟩ := exists_of_mapM known root member
      unfold RootClause.declare at knownRoot
      split at knownRoot
      · cases knownRoot
      · cases knownRoot
      · next kind name _ typeName =>
        cases knownRoot
        exact read clause listed name typeName
    exact { sound with roots := List.forall_mem_append.mpr ⟨sound.roots, named⟩ }
  | directive =>
    cases added
    exact sound
  | foreign text => cases added

theorem sound_foldlM_add {definitions : List Definition} {declarations extended : Declarations σ}
    (sound : declarations.Sound) (read : ∀ definition ∈ definitions, definition.Sound)
    (added : definitions.foldlM add declarations = .ok extended) : extended.Sound := by
  induction definitions generalizing declarations with
  | nil =>
    cases added
    exact sound
  | cons definition definitions ih =>
    obtain ⟨next, first, rest⟩ := foldlM_cons_eq_ok.mp added
    obtain ⟨firstRead, othersRead⟩ := List.forall_mem_cons.mp read
    exact ih (sound_add sound firstRead first) othersRead rest

theorem own_of_foldlM {definitions : List Definition} {declarations extended : Declarations σ}
    (added : definitions.foldlM add declarations = .ok extended) :
    ∀ definition ∈ definitions, ∀ text, definition ≠ .foreign text := by
  induction definitions generalizing declarations with
  | nil => exact nofun
  | cons definition definitions ih =>
    obtain ⟨next, first, rest⟩ := foldlM_cons_eq_ok.mp added
    refine List.forall_mem_cons.mpr ⟨?_, ih rest⟩
    rintro text rfl
    cases first

theorem ofTypes_append (first second : List (TypeDef σ)) :
    ofTypes (first ++ second) = (ofTypes first).append (ofTypes second) := by
  induction first with
  | nil => simp [ofTypes, append]
  | cons type types ih =>
    rw [List.cons_append, ofTypes, List.foldr_cons, ← ofTypes, ih, ← append_assoc]
    rfl

theorem ofTypes_map {α : Type} {items : List α} (type : α → TypeDef σ) (declared : List α → Declarations σ)
    (none : declared [] = {})
    (first : ∀ item items, (ofType (type item)).append (declared items) = declared (item :: items)) :
    ofTypes (items.map type) = declared items := by
  induction items with
  | nil => exact none.symm
  | cons item items ih =>
    rw [List.map_cons, ofTypes, List.foldr_cons, ← ofTypes, ih]
    exact first item items

/-- Types that are grouped by their kinds stay as they are when
they are grouped. -/
theorem types_ofTypes (declarations : Declarations σ) :
    (ofTypes declarations.types).types = declarations.types := by
  have scalars (names : List String) : ofTypes (names.map .scalar) = ({ scalars := names } : Declarations σ) :=
    ofTypes_map .scalar (fun names => { scalars := names }) rfl fun _ _ => rfl
  have interfaces (types : List (InterfaceType σ)) : ofTypes (types.map .interface) = { interfaces := types } :=
    ofTypes_map .interface (fun types => { interfaces := types }) rfl fun _ _ => rfl
  have inputs (types : List InputObjectType) :
      ofTypes (types.map .inputObject) = ({ inputs := types } : Declarations σ) :=
    ofTypes_map .inputObject (fun types => { inputs := types }) rfl fun _ _ => rfl
  have objects (types : List (ObjectType σ)) : ofTypes (types.map .object) = { objects := types } :=
    ofTypes_map .object (fun types => { objects := types }) rfl fun _ _ => rfl
  simp [types, ofTypes_append, scalars, interfaces, inputs, objects, append]

end Declarations

namespace Schema

variable {schema : Schema σ}

theorem Registered.ownTypes_registerAll {schema : Schema σ} (registered : schema.Registered)
    {types : List (TypeDef σ)} {extended : Schema σ} (accepted : schema.registerAll types = .ok extended) :
    extended.ownTypes = schema.ownTypes ++ types := by
  induction types generalizing schema with
  | nil =>
    cases accepted
    exact (List.append_nil _).symm
  | cons type types ih =>
    obtain ⟨next, first, rest⟩ := foldlM_cons_eq_ok.mp accepted
    rw [ih (registered.register first) rest, registered.ownTypes_register first, List.append_assoc]
    rfl

theorem ownTypes_of_registerAll {types : List (TypeDef σ)} (accepted : empty.registerAll types = .ok schema) :
    schema.ownTypes = types := by
  rw [Registered.empty.ownTypes_registerAll accepted, ownTypes_empty, List.nil_append]

theorem eq_insertAll_of_registerAll {types : List (TypeDef σ)} {extended : Schema σ}
    (accepted : schema.registerAll types = .ok extended) : extended = schema.insertAll types := by
  induction types generalizing schema with
  | nil =>
    cases accepted
    rfl
  | cons type types ih =>
    obtain ⟨next, first, rest⟩ := foldlM_cons_eq_ok.mp accepted
    obtain ⟨_, _, rfl⟩ := register_eq_ok first
    exact ih rest

theorem isName_foldl_setRootType {roots : List (OperationKind × String)}
    (names : ∀ kind, IsName (schema.rootTypeName kind)) (named : ∀ root ∈ roots, IsName root.2)
    (kind : OperationKind) :
    IsName ((roots.foldl (fun schema root => schema.setRootType root.1 root.2) schema).rootTypeName kind) := by
  induction roots generalizing schema with
  | nil => exact names kind
  | cons root roots ih =>
    obtain ⟨first, others⟩ := List.forall_mem_cons.mp named
    have renamed : ∀ kind, IsName ((schema.setRootType root.1 root.2).rootTypeName kind) := by
      intro kind
      obtain ⟨changed, name⟩ := root
      cases changed <;> cases kind
      · exact first
      · exact names .mutation
      · exact names .query
      · exact first
    exact ih renamed others

/-- What is known of a schema that a text defines, without behaviour
that is attached to it. -/
structure Accepted (schema : Schema σ) : Prop where
  registered : schema.Registered
  valid : schema.validate = .ok ()
  declared : ∀ type ∈ schema.ownTypes, type.Declared
  grouped : (Declarations.ofTypes schema.ownTypes).types = schema.ownTypes
  roots : ∀ kind, IsName (schema.rootTypeName kind)

theorem accepted_of_ofText {text : String} (accepted : ofText text {} = .ok schema) : schema.Accepted := by
  obtain ⟨definitions, declarations, registered, read, known, registers, valid, rfl⟩ :=
    declarations_of_ofText accepted
  have sound : declarations.Sound :=
    Declarations.sound_foldlM_add Declarations.sound_empty
      (sound_of_ofText? read (Declarations.own_of_foldlM known)) known
  -- without bindings the types are registered as they are declared
  rw [Declarations.bind_empty fun type member => (sound.types type member).2] at registers
  have defaults : ∀ kind, IsName (registered.rootTypeName kind) := by
    have roots := @roots_insertAll σ empty declarations.types
    rw [eq_insertAll_of_registerAll registers]
    intro kind
    cases kind with
    | query =>
      have query : IsName "Query" := by decide
      rwa [rootTypeName, roots.1]
    | mutation =>
      have mutation : IsName "Mutation" := by decide
      rwa [rootTypeName, roots.2]
  have own := (ownTypes_foldl_setRootType declarations.roots registered).trans (ownTypes_of_registerAll registers)
  refine ⟨(Registered.empty.registerAll registers).foldl_setRootType declarations.roots, valid, ?_, ?_,
    isName_foldl_setRootType defaults sound.roots⟩
  · rw [own]
    exact sound.types
  · rw [own]
    exact Declarations.types_ofTypes declarations

theorem Accepted.regrouped_eq {schema : Schema σ} (accepted : schema.Accepted) :
    schema.regrouped = schema.ownTypes := by
  have same : ∀ type ∈ schema.ownTypes, type.unbound = type := fun type own => (accepted.declared type own).2
  rw [regrouped, List.map_congr_left same, List.map_id', accepted.grouped]

theorem Accepted.reread_eq {schema : Schema σ} (accepted : schema.Accepted) : schema.reread = schema := by
  rw [reread, accepted.regrouped_eq]
  exact accepted.registered.eq_insertAll.symm

theorem lexemes_eq_nil_iff : schema.lexemes = [] ↔ schema.definitions = [] := by
  have types (gap : List Char) : Layout.typeDefs gap schema.ownTypes = [] ↔ schema.ownTypes = [] := by
    cases schema.ownTypes with
    | nil => exact ⟨fun _ => rfl, fun _ => rfl⟩
    | cons type types =>
      obtain ⟨word, more, shape⟩ := exists_typeDef gap type
      simp [Layout.typeDefs, shape]
  cases named : schema.ownRoots with
  | nil => simp [lexemes, definitions, named, types]
  | cons kind kinds => simp [lexemes, definitions, named]

theorem text_eq_empty_iff : schema.text = "" ↔ schema.definitions = [] := by
  rw [← lexemes_eq_nil_iff, text]
  split
  · next none => simp [none]
  · next some => simpa using some

theorem Accepted.written {schema : Schema σ} (accepted : schema.Accepted) :
    ∀ type ∈ schema.ownTypes, type.Written := fun type own => (accepted.declared type own).1

/-- What a schema of a text prints defines the same schema if something is
printed and no type is bare. -/
theorem Accepted.ofText_text {schema : Schema σ} (accepted : schema.Accepted) (nonempty : schema.text ≠ "")
    (present : ∀ type ∈ schema.ownTypes, type.isBare = false) : ofText schema.text {} = .ok schema := by
  have defines : schema.definitions ≠ [] := mt text_eq_empty_iff.mpr nonempty
  have again :=
    Schema.ofText_text accepted.registered accepted.valid accepted.written accepted.roots present defines
  rwa [accepted.reread_eq] at again

theorem Accepted.ofText_text_refused {schema : Schema σ} (accepted : schema.Accepted)
    (refused : schema.text = "" ∨ ∃ type ∈ schema.ownTypes, type.isBare = true) :
    ofText schema.text ({} : Bindings σ) = .error (.definition .grammar) := by
  have formed : ∀ type ∈ schema.ownTypes, type.WellFormed :=
    fun type own => accepted.registered.wellFormed (accepted.registered.lookup?_of_ownTypes own)
  have read := ofText?_text (wellSpaced_lexemes accepted.written accepted.roots)
  rw [text_eq_empty_iff] at refused
  rw [ofText, read, definitions?_eq_none accepted.written formed refused]

/-- The text of a schema that a text defines defines the same schema
again, unless it is empty or some type in it has no fields. In these cases
the parser refuses it. -/
theorem accepted_text_parses_back {text : String} {schema : Schema σ} (accepted : ofText text {} = .ok schema) :
    (schema.text ≠ "" → (∀ type ∈ schema.ownTypes, type.isBare = false) → ofText schema.text {} = .ok schema) ∧
      (schema.text = "" ∨ (∃ type ∈ schema.ownTypes, type.isBare = true) →
        ofText schema.text ({} : Bindings σ) = .error (.definition .grammar)) := by
  have known := accepted_of_ofText accepted
  exact ⟨known.ofText_text, known.ofText_text_refused⟩

/-- A text with much that a schema does not keep. -/
def searchText : String :=
  "type Q @a \x7b f(by: In = \x7bx: y\x7d): Int! \x7d # it\n " ++
    "input In \x7b x: ID, n: Float = 1e1 \x7d schema \x7b query: Q \x7d"

theorem accepted_text_parses_back_search : ∃ schema : Schema Unit, ofText searchText {} = .ok schema ∧
    schema.text ≠ "" ∧ (∀ type ∈ schema.ownTypes, type.isBare = false) ∧ ofText schema.text {} = .ok schema := by
  have read : (ofText searchText {} : Except SchemaError (Schema Unit)).toOption.map (fun schema =>
      (schema.ownTypes.length, schema.ownTypes.all fun type => !type.isBare)) = some (2, true) := by decide +kernel
  cases accepted : (ofText searchText {} : Except SchemaError (Schema Unit)) with
  | error error =>
    rw [accepted] at read
    cases read
  | ok schema =>
    rw [accepted] at read
    obtain ⟨count, fields⟩ := Prod.mk.inj (Option.some.inj read)
    have present : ∀ type ∈ schema.ownTypes, type.isBare = false := by simpa using fields
    have nonempty : schema.text ≠ "" := by
      rw [Ne, text_eq_empty_iff, definitions]
      intro none
      have noTypes : schema.ownTypes = [] := by simpa using (List.append_eq_nil_iff.mp none).2
      rw [noTypes] at count
      cases count
    exact ⟨schema, rfl, nonempty, present, (accepted_text_parses_back accepted).1 nonempty present⟩

/-- A type without fields is accepted without braces, and printed
with empty ones. -/
theorem bare_type_refused : ∃ schema : Schema Unit, ofText "type Query" {} = .ok schema ∧
    schema.text = "type Query \x7b\n\x7d\n" ∧ ¬ ∃ again : Schema Unit, ofText schema.text {} = .ok again := by
  have read : (ofText "type Query" {} : Except SchemaError (Schema Unit)).toOption.map (fun schema =>
      (schema.text, (ofText schema.text {} : Except SchemaError (Schema Unit)).toOption.isSome)) =
      some ("type Query \x7b\n\x7d\n", false) := by decide +kernel
  cases accepted : (ofText "type Query" {} : Except SchemaError (Schema Unit)) with
  | error error =>
    rw [accepted] at read
    cases read
  | ok schema =>
    rw [accepted] at read
    obtain ⟨text, refused⟩ := Prod.mk.inj (Option.some.inj read)
    refine ⟨schema, rfl, text, ?_⟩
    rintro ⟨again, known⟩
    rw [known] at refused
    cases refused

end Schema

end SelectionEngine
