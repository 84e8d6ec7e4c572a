import SelectionEngine.Proofs.Coercion.Equations
import SelectionEngine.Proofs.Outcomes

namespace SelectionEngine

variable {σ τ : Type}

/-- What coercion knows of a type: a registered scalar, an input object
type, or no input type. -/
def TypeDef.input? : TypeDef σ → Option (String ⊕ InputObjectType)
  | scalar name => some (.inl name)
  | inputObject type => some (.inr type)
  | object _ | interface _ => none

/-- The fields of an input object type that have a default. -/
def TypeDef.defaulted : TypeDef σ → List ArgumentDef
  | inputObject type => type.fields.filter fun field => field.default.isSome
  | scalar _ | object _ | interface _ => []

namespace Schema

theorem defaultCount_eq (schema : Schema σ) :
    schema.defaultCount = ((Entries.values schema.types).flatMap TypeDef.defaulted).length := by
  rw [defaultCount, Entries.values, List.flatMap_map]
  congr 2
  funext entry
  rcases entry with ⟨_, _ | _ | _ | _⟩ <;> rfl

/-- Whether two schemas coerce values alike: they have the same input types
under the same names, and as many defaults. -/
structure SameInputs (schema : Schema σ) (other : Schema τ) : Prop where
  types : ∀ name, (schema.lookup? name).bind TypeDef.input? = (other.lookup? name).bind TypeDef.input?
  defaults : schema.defaultCount = other.defaultCount

namespace SameInputs

variable {schema : Schema σ} {other : Schema τ}

theorem coerceWhole (same : schema.SameInputs other) : schema.coerceWhole = other.coerceWhole := by
  funext type value path
  cases type with
  | named name =>
    have types := same.types name
    simp only [Schema.coerceWhole]
    revert types
    rcases schema.lookup? name with _ | (_ | _ | _ | _) <;> rcases other.lookup? name with _ | (_ | _ | _ | _) <;>
      simp [TypeDef.input?]
  | _ => rfl

theorem inputObject (same : schema.SameInputs other) {name : String} {input : InputObjectType} :
    schema.lookup? name = some (.inputObject input) ↔ other.lookup? name = some (.inputObject input) := by
  have types := same.types name
  revert types
  rcases schema.lookup? name with _ | (_ | _ | _ | _) <;> rcases other.lookup? name with _ | (_ | _ | _ | _) <;>
    simp +contextual [TypeDef.input?]

section

variable {substitute : ArgumentDef → String → Except ArgumentError (Option Value)}

theorem coerceGiven (same : schema.SameInputs other) (value : Value) (type : TypeRef) (path : String) :
    schema.coerceGiven substitute value type path = other.coerceGiven substitute value type path := by
  induction type, value using schema.byCoercion generalizing path with
  | null type => rw [coerceGiven_null, coerceGiven_null]
  | whole type value present whole =>
    have otherWhole : other.IsWhole type value :=
      ⟨whole.1, fun name input entries named found => whole.2 name input entries named (same.inputObject.mpr found)⟩
    rw [coerceGiven_whole _ _ present whole, coerceGiven_whole _ _ present otherWhole, same.coerceWhole]
  | items type inner items list ih =>
    rw [coerceGiven_items _ _ list, coerceGiven_items _ _ list]
    congr 1
    exact mapM_congr fun entry member => ih entry.1 (List.fst_mem_of_mem_zipIdx member) _
  | fields type name input entries named found ih =>
    rw [coerceGiven_fields _ _ named found, coerceGiven_fields _ _ named (same.inputObject.mp found),
      coerceFields_eq_mapM, coerceFields_eq_mapM]
    congr 2
    refine mapM_congr fun field member => ?_
    rw [coerceEntry_eq, coerceEntry_eq]
    exact fieldOutcome_congr fun value given => ih field member value given _

theorem coerceEntry (same : schema.SameInputs other) (field : ArgumentDef) (path : String) (entries : Object) :
    schema.coerceEntry substitute field path entries = other.coerceEntry substitute field path entries := by
  rw [coerceEntry_eq, coerceEntry_eq]
  exact fieldOutcome_congr fun value _ => same.coerceGiven value field.type path

end

theorem coerceWithin (same : schema.SameInputs other) (budget : Nat) :
    schema.coerceWithin budget = other.coerceWithin budget := by
  induction budget with
  | zero => rfl
  | succ budget ih =>
    funext value type path
    simp only [Schema.coerceWithin, ih, same.coerceGiven]

theorem coerceValue (same : schema.SameInputs other) : schema.coerceValue = other.coerceValue := by
  funext value type path
  simp only [Schema.coerceValue, same.defaults, same.coerceWithin]

theorem coerceArguments (same : schema.SameInputs other) : schema.coerceArguments = other.coerceArguments := by
  funext arguments raw variableValues field
  simp only [Schema.coerceArguments, same.coerceValue, same.coerceEntry]

end SameInputs

end Schema

end SelectionEngine
