import SelectionEngine.Proofs.Schema.AcceptedText
import SelectionEngine.Proofs.Schema.Coherence

namespace SelectionEngine

open Definitions

variable {σ : Type}

namespace Definitions.Definition

/-- The name of an object type and those of its fields. -/
def objectOutline? : Definition → Option (String × List String)
  | object name _ clauses => some (name, clauses.map FieldClause.name)
  | _ => none

def interfaceName? : Definition → Option String
  | interface name _ => some name
  | _ => none

end Definitions.Definition

def ObjectType.outline (type : ObjectType σ) : String × List String := (type.name, type.fields.map FieldDef.name)

theorem Definitions.FieldClause.name_of_declare (clause : FieldClause) (field : FieldDef σ)
    (known : clause.declare = .ok field) : field.name = clause.name := by
  obtain ⟨arguments, _, rfl⟩ := map_eq_ok.mp known
  rfl

namespace Declarations

/-- What a definition adds to the object types and interfaces. -/
theorem outlines_add {declarations extended : Declarations σ} {definition : Definition}
    (added : declarations.add definition = .ok extended) :
    extended.objects.map ObjectType.outline =
        declarations.objects.map ObjectType.outline ++ definition.objectOutline?.toList ∧
      extended.interfaces.map InterfaceType.name =
        declarations.interfaces.map InterfaceType.name ++ definition.interfaceName?.toList := by
  cases definition with
  | object name interfaces clauses =>
    obtain ⟨fields, known, same⟩ := bind_eq_ok.mp added
    cases same
    have names := map_of_mapM FieldClause.name_of_declare known
    simp [Definition.objectOutline?, Definition.interfaceName?, ObjectType.outline, names]
  | interface name clauses =>
    obtain ⟨fields, _, same⟩ := bind_eq_ok.mp added
    cases same
    simp [Definition.objectOutline?, Definition.interfaceName?]
  | inputObject name clauses =>
    obtain ⟨fields, _, same⟩ := bind_eq_ok.mp added
    cases same
    simp [Definition.objectOutline?, Definition.interfaceName?]
  | roots clauses =>
    obtain ⟨roots, _, same⟩ := bind_eq_ok.mp added
    cases same
    simp [Definition.objectOutline?, Definition.interfaceName?]
  | foreign text => cases added
  | _ =>
    cases added
    simp [Definition.objectOutline?, Definition.interfaceName?]

theorem outlines_foldlM_add {definitions : List Definition} {declarations extended : Declarations σ}
    (added : definitions.foldlM add declarations = .ok extended) :
    extended.objects.map ObjectType.outline =
        declarations.objects.map ObjectType.outline ++ definitions.filterMap Definition.objectOutline? ∧
      extended.interfaces.map InterfaceType.name =
        declarations.interfaces.map InterfaceType.name ++ definitions.filterMap Definition.interfaceName? := by
  induction definitions generalizing declarations with
  | nil =>
    cases added
    simp
  | cons definition definitions ih =>
    obtain ⟨next, first, rest⟩ := foldlM_cons_eq_ok.mp added
    obtain ⟨objects, interfaces⟩ := outlines_add first
    obtain ⟨laterObjects, laterInterfaces⟩ := ih rest
    rw [laterObjects, laterInterfaces, objects, interfaces, List.append_assoc, List.append_assoc]
    cases definition <;> exact ⟨rfl, rfl⟩

end Declarations

theorem Definitions.mem_objectOutlines {definitions : List Definition} {name : String} {names : List String} :
    (name, names) ∈ definitions.filterMap Definition.objectOutline? ↔
      ∃ interfaces clauses, .object name interfaces clauses ∈ definitions ∧
        clauses.map FieldClause.name = names := by
  rw [List.mem_filterMap]
  constructor
  · rintro ⟨definition, listed, outlined⟩
    cases definition with
    | object own interfaces clauses =>
      cases outlined
      exact ⟨interfaces, clauses, listed, rfl⟩
    | _ => cases outlined
  · rintro ⟨interfaces, clauses, listed, rfl⟩
    exact ⟨_, listed, rfl⟩

theorem Definitions.mem_interfaceNames {definitions : List Definition} {name : String} :
    name ∈ definitions.filterMap Definition.interfaceName? ↔ ∃ clauses, .interface name clauses ∈ definitions := by
  rw [List.mem_filterMap]
  constructor
  · rintro ⟨definition, listed, named⟩
    cases definition with
    | interface own clauses =>
      cases named
      exact ⟨clauses, listed⟩
    | _ => cases named
  · rintro ⟨clauses, listed⟩
    exact ⟨_, listed, rfl⟩

namespace Bindings

/-- Whether everything is bound to something that is defined: resolvers to fields
of object types, predicates to object types, and type resolvers to interfaces. -/
structure Targets (bindings : Bindings σ) (definitions : List Definition) : Prop where
  fields : ∀ target ∈ Entries.keys bindings.fields, ∃ interfaces clauses,
    .object target.1 interfaces clauses ∈ definitions ∧ ∃ clause ∈ clauses, clause.name = target.2
  predicates : ∀ name ∈ Entries.keys bindings.isTypeOf, ∃ interfaces clauses,
    .object name interfaces clauses ∈ definitions
  typeResolvers : ∀ name ∈ Entries.keys bindings.resolveType, ∃ clauses, .interface name clauses ∈ definitions

theorem loose?_eq_none {bindings : Bindings σ} {declarations : Declarations σ} :
    bindings.loose? declarations = none ↔
      (∀ target ∈ Entries.keys bindings.fields, ∃ type ∈ declarations.objects, type.name = target.1 ∧
        ∃ field ∈ type.fields, field.name = target.2) ∧
      (∀ name ∈ Entries.keys bindings.isTypeOf, ∃ type ∈ declarations.objects, type.name = name) ∧
      ∀ name ∈ Entries.keys bindings.resolveType, ∃ type ∈ declarations.interfaces, type.name = name := by
  simp [loose?]

/-- No binding is loose among the declarations of a text if all
have their targets in it. -/
theorem loose?_eq_none_iff {bindings : Bindings σ} {definitions : List Definition} {declarations : Declarations σ}
    (known : Declarations.ofDefinitions definitions = .ok declarations) :
    bindings.loose? declarations = none ↔ bindings.Targets definitions := by
  obtain ⟨objects, interfaces⟩ := Declarations.outlines_foldlM_add known
  rw [List.map_nil, List.nil_append] at objects interfaces
  have object (name : String) (names : List String) :
      (∃ type ∈ declarations.objects, type.name = name ∧ type.fields.map FieldDef.name = names) ↔
        ∃ interfaces clauses, .object name interfaces clauses ∈ definitions ∧
          clauses.map FieldClause.name = names := by
    rw [← mem_objectOutlines, ← objects]
    simp [ObjectType.outline]
  have interface (name : String) :
      (∃ type ∈ declarations.interfaces, type.name = name) ↔ ∃ clauses, .interface name clauses ∈ definitions := by
    rw [← mem_interfaceNames, ← interfaces, List.mem_map]
  rw [loose?_eq_none]
  constructor
  · rintro ⟨fields, predicates, typeResolvers⟩
    refine ⟨fun target bound => ?_, fun name bound => ?_,
      fun name bound => (interface name).mp (typeResolvers name bound)⟩
    · obtain ⟨type, declared, named, field, member, fieldNamed⟩ := fields target bound
      obtain ⟨interfaces, clauses, defined, names⟩ := (object target.1 _).mp ⟨type, declared, named, rfl⟩
      have listed : target.2 ∈ clauses.map FieldClause.name := by
        rw [names, ← fieldNamed]
        exact List.mem_map_of_mem member
      exact ⟨interfaces, clauses, defined, List.mem_map.mp listed⟩
    · obtain ⟨type, declared, named⟩ := predicates name bound
      obtain ⟨interfaces, clauses, defined, _⟩ := (object name _).mp ⟨type, declared, named, rfl⟩
      exact ⟨interfaces, clauses, defined⟩
  · rintro ⟨fields, predicates, typeResolvers⟩
    refine ⟨fun target bound => ?_, fun name bound => ?_,
      fun name bound => (interface name).mpr (typeResolvers name bound)⟩
    · obtain ⟨interfaces, clauses, defined, clause, member, clauseNamed⟩ := fields target bound
      obtain ⟨type, declared, named, names⟩ := (object target.1 _).mpr ⟨interfaces, clauses, defined, rfl⟩
      have listed : target.2 ∈ type.fields.map FieldDef.name := by
        rw [names, ← clauseNamed]
        exact List.mem_map_of_mem member
      exact ⟨type, declared, named, List.mem_map.mp listed⟩
    · obtain ⟨interfaces, clauses, defined⟩ := predicates name bound
      obtain ⟨type, declared, named, _⟩ := (object name _).mpr ⟨interfaces, clauses, defined, rfl⟩
      exact ⟨type, declared, named⟩

/-- Attaches what is bound to a type. -/
def bindType (bindings : Bindings σ) : TypeDef σ → TypeDef σ
  | .object type => .object (bindings.bindObject type)
  | .interface type => .interface (bindings.bindInterface type)
  | .scalar name => .scalar name
  | .inputObject type => .inputObject type

variable (bindings : Bindings σ)

@[simp] theorem name_bindType (type : TypeDef σ) : (bindings.bindType type).name = type.name := by
  cases type <;> rfl

@[simp] theorem unbound_bindType (type : TypeDef σ) : (bindings.bindType type).unbound = type.unbound := by
  cases type <;> simp [bindType, bindObject, bindInterface, TypeDef.unbound, ObjectType.unbound,
    InterfaceType.unbound, FieldDef.unbound, Function.comp_def]

theorem types_bind (declarations : Declarations σ) :
    (bindings.bind declarations).types = declarations.types.map bindings.bindType := by
  simp [bind, Declarations.types, bindType, Function.comp_def]

theorem roots_bind (declarations : Declarations σ) : (bindings.bind declarations).roots = declarations.roots := rfl

end Bindings

namespace Schema

variable {text : String} {bindings : Bindings σ} {schema plain : Schema σ}

/-- Declared types become the same schema whatever is bound to them, apart from
what is bound, and are refused for the same reasons. -/
theorem unbound_ofDeclarations (bindings : Bindings σ) {declarations : Declarations σ}
    (unbound : ∀ type ∈ declarations.types, type.unbound = type) :
    (ofDeclarations (bindings.bind declarations)).map Schema.unbound = ofDeclarations declarations := by
  have types : (bindings.bind declarations).types.map TypeDef.unbound = declarations.types := by
    simp only [Bindings.types_bind, List.map_map, Function.comp_def, Bindings.unbound_bindType]
    rw [List.map_congr_left unbound, List.map_id']
  have registers := unbound_registerAll empty (bindings.bind declarations).types
  rw [types, show (empty : Schema σ).unbound = empty from rfl] at registers
  rw [ofDeclarations, ofDeclarations, ← registers]
  cases registerAll empty (bindings.bind declarations).types with
  | error fault => rfl
  | ok registered =>
    simp only [bindings.roots_bind, Except.map, bind, Except.bind]
    rw [← unbound_foldl_setRootType, unbound_validate]
    cases (declarations.roots.foldl (fun schema root =>
      schema.setRootType root.1 root.2) registered).validate <;> rfl

theorem ofText_eq_ok : ofText text bindings = .ok schema ↔
    ∃ definitions declarations, Definition.ofText? text = some definitions ∧
      Declarations.ofDefinitions definitions = .ok declarations ∧ bindings.loose? declarations = none ∧
      ofDeclarations (bindings.bind declarations) = .ok schema := by
  rw [ofText]
  cases Definition.ofText? text with
  | none => simp
  | some definitions =>
    simp only [ofDefinitions, Option.some.injEq, exists_and_left, exists_eq_left']
    cases Declarations.ofDefinitions definitions with
    | error fault => simp
    | ok declarations =>
      simp only [Except.ok.injEq, exists_eq_left']
      cases bindings.loose? declarations <;> simp

theorem unbound_of_ofDefinitions {definitions : List Definition} {declarations : Declarations σ}
    (read : Definition.ofText? text = some definitions)
    (known : Declarations.ofDefinitions definitions = .ok declarations) :
    ∀ type ∈ declarations.types, type.unbound = type := fun type member =>
  have sound : declarations.Sound := Declarations.sound_foldlM_add Declarations.sound_empty
    (sound_of_ofText? read (Declarations.own_of_foldlM known)) known
  (sound.types type member).2

/-- With bindings a text defines a schema if it does so without them and they
all have targets in it. -/
theorem exists_ofText_iff (text : String) (bindings : Bindings σ) :
    (∃ schema, ofText text bindings = .ok schema) ↔
      (∃ plain : Schema σ, ofText text {} = .ok plain) ∧
        ∃ definitions, Definition.ofText? text = some definitions ∧ bindings.Targets definitions := by
  constructor
  · rintro ⟨schema, accepted⟩
    obtain ⟨definitions, declarations, read, known, bound, declared⟩ := ofText_eq_ok.mp accepted
    have unbound := unbound_of_ofDefinitions read known
    have plain : ofDeclarations declarations = .ok schema.unbound := by
      rw [← unbound_ofDeclarations bindings unbound, declared]
      rfl
    rw [← Declarations.bind_empty unbound] at plain
    exact ⟨⟨_, ofText_eq_ok.mpr ⟨definitions, declarations, read, known, rfl, plain⟩⟩, definitions, read,
      (Bindings.loose?_eq_none_iff known).mp bound⟩
  · rintro ⟨⟨plain, accepted⟩, definitions, read, targets⟩
    obtain ⟨_, declarations, readAgain, known, _, declared⟩ := ofText_eq_ok.mp accepted
    obtain rfl := Option.some.inj (read.symm.trans readAgain)
    have unbound := unbound_of_ofDefinitions read known
    rw [Declarations.bind_empty unbound, ← unbound_ofDeclarations bindings unbound, map_eq_ok] at declared
    obtain ⟨schema, declared, _⟩ := declared
    exact ⟨schema, ofText_eq_ok.mpr
      ⟨definitions, declarations, read, known, (Bindings.loose?_eq_none_iff known).mpr targets, declared⟩⟩

/-- The predicate of an object type. -/
def predicate? (schema : Schema σ) (name : String) : Option (Value → Bool) :=
  match schema.lookup? name with
  | some (.object type) => type.isTypeOf
  | _ => none

/-- The type resolver of an interface. -/
def typeResolver? (schema : Schema σ) (name : String) : Option (Value → Option String) :=
  match schema.lookup? name with
  | some (.interface type) => type.resolveType
  | _ => none

end Schema

/-- Whether a schema is another one with exactly these bindings. -/
structure Bindings.Attached (bindings : Bindings σ) (plain schema : Schema σ) : Prop where
  types : schema.types = plain.types.map fun entry => (entry.1, bindings.bindType entry.2)
  implementors : schema.implementors = plain.implementors
  roots : ∀ kind, schema.rootTypeName kind = plain.rootTypeName kind
  resolvers : ∀ type field, schema.resolver? type field = Entries.get? (type, field) bindings.fields
  predicates : ∀ name, schema.predicate? name = Entries.get? name bindings.isTypeOf
  typeResolvers : ∀ name, schema.typeResolver? name = Entries.get? name bindings.resolveType

theorem ObjectType.field?_bindObject (bindings : Bindings σ) (type : ObjectType σ) (name : String) :
    ((bindings.bindObject type).field? name).bind FieldDef.resolver =
      (type.field? name).bind fun field => Entries.get? (type.name, field.name) bindings.fields := by
  simp only [field?, Bindings.bindObject, List.find?_map, Function.comp_def]
  cases type.fields.find? fun field => decide (field.name = name) <;> rfl

namespace Schema

variable {text : String} {bindings : Bindings σ} {schema plain : Schema σ}

theorem registered_of_ofDeclarations {declarations : Declarations σ}
    (declared : ofDeclarations declarations = .ok schema) :
    schema.Registered ∧ schema.ownTypes = declarations.types := by
  obtain ⟨registered, registers, rest⟩ := bind_eq_ok.mp declared
  obtain ⟨_, same⟩ := check_bind_eq_ok.mp rest
  cases same
  exact ⟨(Registered.empty.registerAll registers).foldl_setRootType declarations.roots,
    (ownTypes_foldl_setRootType declarations.roots registered).trans (ownTypes_of_registerAll registers)⟩

theorem types_of_ownTypes (registered : schema.Registered) (plainRegistered : plain.Registered)
    (own : schema.ownTypes = plain.ownTypes.map bindings.bindType) :
    schema.types = plain.types.map fun entry => (entry.1, bindings.bindType entry.2) := by
  rw [registered.types_eq, plainRegistered.types_eq, own, List.map_append, List.map_map, List.map_map]
  congr 1
  exact List.map_congr_left fun type _ => congrArg (·, bindings.bindType type) (bindings.name_bindType type)

section

variable (plainRegistered : plain.Registered)
  (lookup : ∀ name, schema.lookup? name = (plain.lookup? name).map bindings.bindType)

include plainRegistered lookup

theorem resolver?_of_bound (registered : schema.Registered)
    (targets : ∀ target ∈ Entries.keys bindings.fields, ∃ type, plain.lookup? target.1 = some (.object type) ∧
      ∃ field ∈ type.fields, field.name = target.2) (name field : String) :
    schema.resolver? name field = Entries.get? (name, field) bindings.fields := by
  have unbound (noTarget : ∀ type, plain.lookup? name = some (.object type) → type.field? field = none) :
      Entries.get? (name, field) bindings.fields = none := by
    refine Entries.get?_eq_none_of_keys fun bound => ?_
    obtain ⟨type, found, declared, member, rfl⟩ := targets _ bound
    exact List.find?_eq_none.mp (noTarget type found) declared member (decide_eq_true rfl)
  rw [registered.resolver?_eq_carried?, carried?, lookup]
  rcases known : plain.lookup? name with _ | (_ | type | _ | _)
  case some.object =>
    refine (type.field?_bindObject bindings field).trans ?_
    have named : type.name = name := plainRegistered.name_of_lookup? known
    cases declared : type.field? field with
    | some found =>
      have foundNamed : found.name = field := by simpa using List.find?_some declared
      rw [Option.bind_some, named, foundNamed]
    | none =>
      refine (unbound fun other found => ?_).symm
      rw [known] at found
      cases found
      exact declared
  all_goals exact (unbound (by simp [known])).symm

theorem predicate?_of_bound
    (targets : ∀ name ∈ Entries.keys bindings.isTypeOf, ∃ type, plain.lookup? name = some (.object type))
    (name : String) : schema.predicate? name = Entries.get? name bindings.isTypeOf := by
  rw [predicate?, lookup]
  rcases known : plain.lookup? name with _ | (_ | type | _ | _)
  case some.object => exact congrArg (Entries.get? · bindings.isTypeOf) (plainRegistered.name_of_lookup? known)
  all_goals exact (Entries.get?_eq_none_of_keys fun bound => by simpa [known] using targets name bound).symm

theorem typeResolver?_of_bound
    (targets : ∀ name ∈ Entries.keys bindings.resolveType, ∃ type, plain.lookup? name = some (.interface type))
    (name : String) : schema.typeResolver? name = Entries.get? name bindings.resolveType := by
  rw [typeResolver?, lookup]
  rcases known : plain.lookup? name with _ | (_ | _ | type | _)
  case some.interface =>
    exact congrArg (Entries.get? · bindings.resolveType) (plainRegistered.name_of_lookup? known)
  all_goals exact (Entries.get?_eq_none_of_keys fun bound => by simpa [known] using targets name bound).symm

end

/-- The schema that a text defines with bindings is the one that it defines
without them, with these attached. -/
theorem attached_of_ofText (accepted : ofText text bindings = .ok schema) (plainly : ofText text {} = .ok plain) :
    bindings.Attached plain schema := by
  obtain ⟨definitions, declarations, read, known, tight, declared⟩ := ofText_eq_ok.mp accepted
  obtain ⟨_, _, readAgain, knownAgain, _, plainDeclared⟩ := ofText_eq_ok.mp plainly
  obtain rfl := Option.some.inj (read.symm.trans readAgain)
  obtain rfl := Except.ok.inj (known.symm.trans knownAgain)
  have unbound := unbound_of_ofDefinitions read known
  rw [Declarations.bind_empty unbound] at plainDeclared
  obtain ⟨registered, own⟩ := registered_of_ofDeclarations declared
  obtain ⟨plainRegistered, plainOwn⟩ := registered_of_ofDeclarations plainDeclared
  rw [Bindings.types_bind, ← plainOwn] at own
  have types := types_of_ownTypes registered plainRegistered own
  have lookup (name : String) : schema.lookup? name = (plain.lookup? name).map bindings.bindType := by
    rw [lookup?, types, lookup?]
    exact Entries.get?_map bindings.bindType plain.types name
  obtain rfl : schema.unbound = plain := by
    rw [← unbound_ofDeclarations bindings unbound, declared] at plainDeclared
    exact Except.ok.inj plainDeclared
  have found {type : TypeDef σ} (member : type ∈ declarations.types) :
      schema.unbound.lookup? type.name = some type :=
    plainRegistered.lookup?_of_ownTypes (plainOwn ▸ member)
  obtain ⟨fields, predicates, typeResolvers⟩ := Bindings.loose?_eq_none.mp tight
  refine ⟨types, rfl, fun kind => by cases kind <;> rfl,
    resolver?_of_bound plainRegistered lookup registered fun target bound => ?_,
    predicate?_of_bound plainRegistered lookup fun name bound => ?_,
    typeResolver?_of_bound plainRegistered lookup fun name bound => ?_⟩
  · obtain ⟨type, declared, named, field, member, fieldNamed⟩ := fields target bound
    exact ⟨type, named ▸ found (Declarations.mem_types.2 type declared), field, member, fieldNamed⟩
  · obtain ⟨type, declared, rfl⟩ := predicates name bound
    exact ⟨type, found (Declarations.mem_types.2 type declared)⟩
  · obtain ⟨type, declared, rfl⟩ := typeResolvers name bound
    exact ⟨type, found (Declarations.mem_types.1 type declared)⟩

/-- Bindings are bound completely or refused. A text defines a schema with
bindings if it does so without them and each binding is to something of its
kind that the text defines, and then it defines the same schema with exactly
these bindings attached. -/
theorem bindings_attached_or_refused (text : String) (bindings : Bindings σ) :
    ((∃ schema, ofText text bindings = .ok schema) ↔
      (∃ plain : Schema σ, ofText text {} = .ok plain) ∧
        ∃ definitions, Definition.ofText? text = some definitions ∧ bindings.Targets definitions) ∧
    ∀ schema, ofText text bindings = .ok schema →
      ∃ plain, ofText text {} = .ok plain ∧ bindings.Attached plain schema := by
  refine ⟨exists_ofText_iff text bindings, fun schema accepted => ?_⟩
  obtain ⟨⟨plain, plainly⟩, _⟩ := (exists_ofText_iff text bindings).mp ⟨schema, accepted⟩
  exact ⟨plain, plainly, attached_of_ofText accepted plainly⟩

def fleetText : String :=
  "type Query { flagship: Vessel } interface Vessel { name: ID } type Ship implements Vessel { name: ID }"

/-- A resolver for a field of an object type, a predicate and a type resolver. -/
def fleetBindings : Bindings Unit where
  fields := [(("Query", "flagship"), .immediate fun _ => .value .null)]
  isTypeOf := [("Ship", fun _ => true)]
  resolveType := [("Vessel", fun _ => some "Ship")]

/-- A resolver for a field of an interface. -/
def vesselBindings : Bindings Unit where
  fields := [(("Vessel", "name"), .immediate fun _ => .value .null)]

theorem bindings_attached_or_refused_fleet :
    (∃ schema plain : Schema Unit, ofText fleetText fleetBindings = .ok schema ∧ ofText fleetText {} = .ok plain ∧
      fleetBindings.Attached plain schema) ∧
    ¬ ∃ definitions, Definition.ofText? fleetText = some definitions ∧ vesselBindings.Targets definitions := by
  have accepted : (ofText fleetText fleetBindings).toOption.map (fun _ => ()) = some () := by decide +kernel
  have refused : (ofText fleetText vesselBindings).toOption.map (fun _ => ()) = none := by decide +kernel
  obtain ⟨schema, known, _⟩ := exists_of_toOption accepted
  obtain ⟨plain, plainly, attached⟩ := (bindings_attached_or_refused fleetText fleetBindings).2 schema known
  refine ⟨⟨schema, plain, known, plainly, attached⟩, fun targets => ?_⟩
  obtain ⟨bound, same⟩ := (bindings_attached_or_refused fleetText vesselBindings).1.mpr ⟨⟨plain, plainly⟩, targets⟩
  rw [same] at refused
  cases refused

end Schema

end SelectionEngine
