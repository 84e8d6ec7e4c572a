import SelectionEngine.Proofs.Schema.AcceptedText
import SelectionEngine.Proofs.Schema.Coherence

namespace SelectionEngine

open Definitions

variable {σ : Type}

/-- Whether a type is an object type that says to implement an interface. -/
def TypeDef.declares (interface : String) : TypeDef σ → Bool
  | object type => interface ∈ type.interfaces
  | scalar _ | .interface _ | inputObject _ => false

theorem TypeDef.listedUnder_of_count {interface : String} {type : TypeDef σ}
    (once : ∀ object, type = .object object → object.interfaces.count interface ≤ 1) :
    type.listedUnder interface = if type.declares interface then [type.name] else [] := by
  cases type with
  | object object =>
    have count := once object rfl
    by_cases declared : interface ∈ object.interfaces
    · have one : object.interfaces.count interface = 1 := le_antisymm count (List.count_pos_iff.mpr declared)
      simp [listedUnder, declares, declared, one, name]
    · simp [listedUnder, declares, declared, List.count_eq_zero_of_not_mem]
  | _ => rfl

theorem TypeDef.flatMap_listedUnder {interface : String} {types : List (TypeDef σ)}
    (once : ∀ object, .object object ∈ types → object.interfaces.count interface ≤ 1) :
    types.flatMap (listedUnder interface) = (types.filter (declares interface)).map TypeDef.name := by
  induction types with
  | nil => rfl
  | cons type types ih =>
    have first : type.listedUnder interface = if type.declares interface then [type.name] else [] := by
      refine listedUnder_of_count ?_
      rintro object rfl
      exact once object (.head _)
    rw [List.flatMap_cons, first, ih fun object member => once object (.tail _ member), List.filter_cons]
    split <;> rfl

/-- How often a definition of an object type lists it under an interface: as
often as it names the interface. -/
def Definitions.Definition.listedUnder (interface : String) : Definition → List String
  | .object name interfaces _ => List.replicate (interfaces.count interface) name
  | _ => []

namespace Declarations

/-- The object types of declarations as they are listed under an interface. -/
def listedUnder (interface : String) (declarations : Declarations σ) : List String :=
  declarations.objects.flatMap fun type => TypeDef.listedUnder interface (.object type)

theorem listedUnder_add {declarations extended : Declarations σ} {definition : Definition}
    (added : declarations.add definition = .ok extended) (interface : String) :
    extended.listedUnder interface = declarations.listedUnder interface ++ definition.listedUnder interface := by
  cases definition with
  | object name interfaces clauses =>
    obtain ⟨fields, _, same⟩ := bind_eq_ok.mp added
    cases same
    simp [listedUnder, TypeDef.listedUnder, Definition.listedUnder]
  | interface name clauses =>
    obtain ⟨fields, _, same⟩ := bind_eq_ok.mp added
    cases same
    exact (List.append_nil _).symm
  | inputObject name clauses =>
    obtain ⟨fields, _, same⟩ := bind_eq_ok.mp added
    cases same
    exact (List.append_nil _).symm
  | roots clauses =>
    obtain ⟨roots, _, same⟩ := bind_eq_ok.mp added
    cases same
    exact (List.append_nil _).symm
  | scalar name | directive =>
    cases added
    exact (List.append_nil _).symm
  | foreign text => cases added

theorem listedUnder_foldlM_add {definitions : List Definition} {declarations extended : Declarations σ}
    (added : definitions.foldlM add declarations = .ok extended) (interface : String) :
    extended.listedUnder interface =
      declarations.listedUnder interface ++ definitions.flatMap (Definition.listedUnder interface) := by
  induction definitions generalizing declarations with
  | nil =>
    cases added
    exact (List.append_nil _).symm
  | cons definition definitions ih =>
    obtain ⟨next, first, rest⟩ := foldlM_cons_eq_ok.mp added
    rw [ih rest, listedUnder_add first, List.append_assoc, List.flatMap_cons]

theorem listedUnder_bind (bindings : Bindings σ) (declarations : Declarations σ) (interface : String) :
    (bindings.bind declarations).listedUnder interface = declarations.listedUnder interface := by
  rw [listedUnder, Bindings.bind, List.flatMap_map]
  rfl

end Declarations

namespace Schema

/-- Those of some types that are registered when each of them is tried in turn. -/
def accepted (schema : Schema σ) : List (TypeDef σ) → List (TypeDef σ)
  | [] => []
  | type :: types => match schema.register type with
    | .ok extended => type :: extended.accepted types
    | .error _ => schema.accepted types

/-- The types that are accepted stand in a schema in the order in
which they were tried. -/
theorem Registered.ownTypes_attemptAll {schema : Schema σ} (registered : schema.Registered)
    (attempted : List (TypeDef σ)) :
    (schema.attemptAll attempted).ownTypes = schema.ownTypes ++ schema.accepted attempted := by
  induction attempted generalizing schema with
  | nil => exact (List.append_nil _).symm
  | cons type types ih =>
    rw [Schema.attemptAll, List.foldl_cons, ← Schema.attemptAll, accepted]
    cases tried : schema.register type with
    | ok extended =>
      rw [attempt_of_ok tried, ih (registered.register tried), registered.ownTypes_register tried]
      simp
    | error fault => rw [attempt_of_error tried, ih registered]

theorem implementorsOf_of_ofText {text : String} {bindings : Bindings σ} {schema : Schema σ}
    (parsed : ofText text bindings = .ok schema) (interface : String) :
    schema.Registered ∧ ∃ definitions, Definition.ofText? text = some definitions ∧
      schema.implementorsOf interface = definitions.flatMap (Definition.listedUnder interface) := by
  obtain ⟨definitions, declarations, registered, read, known, registers, _, rfl⟩ := declarations_of_ofText parsed
  refine ⟨(Registered.empty.registerAll registers).foldl_setRootType declarations.roots, definitions, read, ?_⟩
  rw [implementorsOf_foldl_setRootType, eq_insertAll_of_registerAll registers, implementorsOf_insertAll,
    Declarations.flatMap_listedUnder_types, ← Declarations.listedUnder, Declarations.listedUnder_bind,
    Declarations.listedUnder_foldlM_add known]
  rfl

/-- The names of the object types that declare an interface, in the order
of their registration. -/
def declaring (schema : Schema σ) (interface : String) : List String :=
  (schema.ownTypes.filter (TypeDef.declares interface)).map TypeDef.name

theorem Registered.declaring_nodup {schema : Schema σ} (registered : schema.Registered) (interface : String) :
    (schema.declaring interface).Nodup :=
  (List.filter_sublist.map TypeDef.name).nodup registered.ownTypes_nodup

/-- Every object type is listed once under an interface exactly if none names
the interface more than once. -/
theorem Registered.implementorsOf_eq_declaring_iff {schema : Schema σ} (registered : schema.Registered)
    (interface : String) : schema.implementorsOf interface = schema.declaring interface ↔
      ∀ object, .object object ∈ schema.ownTypes → object.interfaces.count interface ≤ 1 := by
  constructor
  · -- the object types that declare the interface are distinct, so no part of their list repeats a name
    intro same object own
    have part : (TypeDef.listedUnder interface (.object object)).Sublist (schema.implementorsOf interface) := by
      rw [registered.implementorsOf_eq, List.flatMap_def]
      exact List.sublist_flatten_of_mem (List.mem_map_of_mem own)
    rw [same] at part
    exact List.nodup_replicate.mp (part.nodup (registered.declaring_nodup interface))
  · intro once
    rw [registered.implementorsOf_eq, TypeDef.flatMap_listedUnder once]
    rfl

/-- Under an interface stand the object types that declare it, in the order in
which they were registered or are defined in a text, each as often as it names the
interface. So each stands there once exactly if none names it more than once. -/
theorem implementors_in_order (interface : String) :
    (∀ attempted : List (TypeDef σ), (empty.attemptAll attempted).ownTypes = empty.accepted attempted ∧
      (empty.attemptAll attempted).implementorsOf interface =
        (empty.accepted attempted).flatMap (TypeDef.listedUnder interface)) ∧
    (∀ text (bindings : Bindings σ) schema, ofText text bindings = .ok schema → schema.Registered ∧
      ∃ definitions, Definition.ofText? text = some definitions ∧
        schema.implementorsOf interface = definitions.flatMap (Definition.listedUnder interface)) ∧
    ∀ schema : Schema σ, schema.Registered → (schema.implementorsOf interface = schema.declaring interface ↔
      ∀ object, .object object ∈ schema.ownTypes → object.interfaces.count interface ≤ 1) := by
  refine ⟨fun attempted => ?_, fun text bindings schema parsed => implementorsOf_of_ofText parsed interface,
    fun schema registered => registered.implementorsOf_eq_declaring_iff interface⟩
  have own : (empty.attemptAll attempted).ownTypes = empty.accepted attempted := by
    rw [Registered.empty.ownTypes_attemptAll, ownTypes_empty, List.nil_append]
  exact ⟨own, own ▸ (Registered.empty.attemptAll attempted).implementorsOf_eq interface⟩

/-- Of these the third is refused, because its name is taken. -/
def crewTypes : List (TypeDef Unit) := [
  .interface { name := "Crew" },
  .object { name := "Pilot", interfaces := ["Crew"] },
  .interface { name := "Pilot" },
  .object { name := "Doctor", interfaces := ["Crew"] }]

def crewText : String :=
  "type Pilot implements Crew \x7b id: ID \x7d type Doctor implements Crew \x7b id: ID \x7d " ++
    "interface Crew \x7b id: ID \x7d"

theorem implementors_in_order_crew :
    (empty.attemptAll crewTypes).Registered ∧
      (empty.attemptAll crewTypes).implementorsOf "Crew" = (empty.attemptAll crewTypes).declaring "Crew" ∧
      ∃ schema : Schema Unit, ofText crewText {} = .ok schema ∧
        schema.implementorsOf "Crew" = ["Pilot", "Doctor"] := by
  obtain ⟨_, parsed, once⟩ := @implementors_in_order Unit "Crew"
  have registered : (empty.attemptAll crewTypes).Registered := Registered.empty.attemptAll crewTypes
  refine ⟨registered, (once _ registered).mpr fun object own => ?_, ?_⟩
  · have objects : (empty.attemptAll crewTypes).ownTypes =
        [.interface { name := "Crew" }, .object { name := "Pilot", interfaces := ["Crew"] },
          .object { name := "Doctor", interfaces := ["Crew"] }] := rfl
    rw [objects] at own
    simp only [List.mem_cons, TypeDef.object.injEq, reduceCtorEq, false_or, List.not_mem_nil, or_false] at own
    rcases own with rfl | rfl <;> decide
  · have accepted :
        (ofText crewText {} : Except SchemaError (Schema Unit)).toOption.map (fun _ => ()) = some () := by
      decide +kernel
    have order : (Definition.ofText? crewText).map (fun definitions =>
        definitions.flatMap (Definition.listedUnder "Crew")) = some ["Pilot", "Doctor"] := by decide +kernel
    obtain ⟨schema, known, _⟩ := exists_of_toOption accepted
    obtain ⟨_, definitions, read, listed⟩ := parsed crewText {} schema known
    rw [read] at order
    exact ⟨schema, known, listed.trans (Option.some.inj order)⟩

def nodeTypes : List (TypeDef Unit) := [
  .interface { name := "Node" },
  .object { name := "User", interfaces := ["Node", "Node"] }]

def nodeText : String := "interface Node \x7b id: ID \x7d type User implements Node & Node \x7b id: ID \x7d"

/-- An object type that names an interface twice is accepted, and
listed twice under it. -/
theorem implementor_listed_twice :
    (empty.attemptAll nodeTypes).implementorsOf "Node" = ["User", "User"] ∧
      (empty.attemptAll nodeTypes).declaring "Node" = ["User"] ∧
      ∃ schema : Schema Unit, ofText nodeText {} = .ok schema ∧ schema.implementorsOf "Node" = ["User", "User"] ∧
        schema.declaring "Node" = ["User"] := by
  refine ⟨rfl, rfl, ?_⟩
  have read : (ofText nodeText {} : Except SchemaError (Schema Unit)).toOption.map (fun schema =>
      (schema.implementorsOf "Node", schema.declaring "Node")) = some (["User", "User"], ["User"]) := by
    decide +kernel
  obtain ⟨schema, known, same⟩ := exists_of_toOption read
  exact ⟨schema, known, Prod.mk.inj same⟩

end Schema

end SelectionEngine
