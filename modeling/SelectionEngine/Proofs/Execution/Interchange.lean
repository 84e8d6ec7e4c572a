import SelectionEngine.Execution.Operation
import SelectionEngine.Proofs.Execution.Completion
import SelectionEngine.Proofs.Schema.Interchange
import SelectionEngine.Proofs.Schema.WithoutResolvers

namespace SelectionEngine

variable {ρ σ : Type}

namespace Schema.Alike

variable {schema other : Schema σ} (alike : schema.Alike other)

include alike

theorem fieldGroups : schema.fieldGroups = other.fieldGroups := by
  funext type selections
  exact collectAll_congr (fun _ => rfl) (fun condition => by rw [alike.applies]) selections []

theorem concreteType? : schema.concreteType? = other.concreteType? := by
  funext name value path
  simp only [Schema.concreteType?, alike.lookup?, alike.resolveConcrete]

theorem dispatch : schema.dispatch = other.dispatch := by
  funext info
  simp only [Schema.dispatch, alike.resolver?]

theorem rootArgumentError? : schema.rootArgumentError? = other.rootArgumentError? := by
  funext type request
  simp only [Schema.rootArgumentError?, alike.fieldGroups, alike.sameInputs.coerceArguments]

end Schema.Alike

namespace Run

variable {run : Run ρ σ} {other : Schema ρ} (alike : run.schema.Alike other)

include alike

/-- On schemas that are alike, values are completed alike. -/
theorem complete_of_alike (execute : ObjectExecution ρ σ) (parentType field : String) :
    { run with schema := other }.complete execute parentType field = run.complete execute parentType field := by
  have named : { run with schema := other }.completeNamed execute = run.completeNamed execute := by
    funext name value path
    simp only [completeNamed, alike.concreteType?]
  funext type
  exact complete_congr named rfl type

theorem executeGroup_of_alike (execute : ObjectExecution ρ σ) :
    { run with schema := other }.executeGroup execute = run.executeGroup execute := by
  funext type parent path group
  simp only [executeGroup, alike.sameInputs.coerceArguments, complete_of_alike alike]

theorem executeObject_of_alike (serial : Bool) (depth : Nat) (selections : List Selection) :
    { run with schema := other }.executeObject serial depth selections =
      run.executeObject serial depth selections := by
  induction depth generalizing serial selections with
  | zero => rfl
  | succ depth ih =>
    funext type parent path
    simp only [executeObject, alike.fieldGroups, ih, executeGroup_of_alike alike]
    rfl

end Run

namespace Schema

variable {schema other : Schema σ}

theorem Alike.prepare (alike : schema.Alike other) : schema.prepare = other.prepare := by
  funext settings request root
  have runs : other.runOf settings request = { schema.runOf settings request with schema := other } := by
    simp only [runOf, alike.dispatch]
  have executes := @Run.executeObject_of_alike _ _ (schema.runOf settings request) other alike
  simp only [Schema.prepare, alike.rootType?, alike.rootArgumentError?, runs, executes]

theorem Alike.execute (alike : schema.Alike other) : schema.execute = other.execute := by
  funext settings request root state
  simp only [Schema.execute, alike.prepare]

/-- The order in which types are registered shows only in the order of the
implementors of each interface: where that is the same, both schemas are valid
or none is, and every request is answered alike and leaves the same state. -/
theorem order_shows_in_implementors {start : Schema σ} (registered : start.Registered)
    {types others : List (TypeDef σ)}
    (registers : start.registerAll types = .ok schema) (alsoRegisters : start.registerAll others = .ok other)
    (perm : types.Perm others)
    (same : ∀ interface, schema.implementorsOf interface = other.implementorsOf interface) :
    (schema.validate = .ok () ↔ other.validate = .ok ()) ∧
      ∀ settings request root state,
        schema.execute settings request root state = other.execute settings request root state := by
  have alike := registered.alike_of_perm registers alsoRegisters perm same
  refine ⟨alike.validate, fun settings request root state => ?_⟩
  rw [alike.execute]

def vessel : InterfaceType Nat := { name := "Vessel", fields := [{ name := "mast", type := .builtIn .int }] }

/-- An implementor of `Vessel` that takes every value with a property. -/
def vesselWith (name property : String) : ObjectType Nat where
  name := name
  fields := [{ name := "mast", type := .builtIn .int }]
  interfaces := ["Vessel"]
  isTypeOf := some fun value => (value.property? property).isSome

/-- Gives a value that every implementor takes, and counts how
often it is called. -/
def moor : Resolver Nat := .acting fun _ n =>
  (.value (.object [("sail", .bool true), ("oar", .bool true), ("mast", .int n)]), n + 1)

def harbour : ObjectType Nat where
  name := "Query"
  fields := [{ name := "berth", type := .named "Vessel", resolver := some moor }]

def fleetTypes : List (TypeDef Nat) :=
  [.object harbour, .interface vessel, .object (vesselWith "Yacht" "sail"), .object (vesselWith "Galley" "oar")]

/-- The root comes between the implementors. -/
def movedTypes : List (TypeDef Nat) :=
  [.interface vessel, .object (vesselWith "Yacht" "sail"), .object harbour, .object (vesselWith "Galley" "oar")]

def fleet : Schema Nat := fleetTypes.foldl .insert .empty

def movedFleet : Schema Nat := movedTypes.foldl .insert .empty

def berthRequest : Request where
  operation := .query
  selectionSet := [.field { name := "berth" } [.field { name := "__typename" } [], .field { name := "mast" } []]]

theorem order_shows_in_implementors_fleet :
    empty.registerAll fleetTypes = .ok fleet ∧ empty.registerAll movedTypes = .ok movedFleet ∧
      fleetTypes.Perm movedTypes ∧ movedFleet.validate = .ok () ∧
      movedFleet.execute {} berthRequest .null 1 =
        ({ data := some (.object [
          ("berth", .object [("__typename", .string "Yacht"), ("mast", .int 1)])]) }, 2) := by
  have registers : empty.registerAll fleetTypes = .ok fleet := rfl
  have alsoRegisters : empty.registerAll movedTypes = .ok movedFleet := rfl
  have perm : fleetTypes.Perm movedTypes := by
    have moved := @List.perm_middle (TypeDef Nat) (.object harbour)
      [.interface vessel, .object (vesselWith "Yacht" "sail")] [.object (vesselWith "Galley" "oar")]
    exact moved.symm
  obtain ⟨valid, same⟩ := order_shows_in_implementors .empty registers alsoRegisters perm fun _ => rfl
  exact ⟨registers, alsoRegisters, perm, valid.mp rfl, (same {} berthRequest .null 1).symm.trans rfl⟩

end Schema

end SelectionEngine
