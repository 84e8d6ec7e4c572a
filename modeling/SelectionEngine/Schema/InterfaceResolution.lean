import SelectionEngine.Schema.Basic

namespace SelectionEngine

/-- No implementor of the interface claims a value. -/
structure TypeResolutionError where
  interface : String
deriving DecidableEq

instance : Reportable TypeResolutionError where
  message error := s!"cannot resolve concrete type for interface {error.interface}"
  code _ := "TYPE_RESOLUTION_FAILED"
  details error := [("interface", .string error.interface)]

namespace Schema

variable {σ : Type}

/-- Whether a name is that of an object type that accepts the value. -/
def acceptedBy (schema : Schema σ) (value : Value) (name : String) : Bool :=
  match schema.lookup? name with
  | some (.object type) => type.accepts value
  | _ => false

/-- The object type of a value of an interface. The interface's own choice
counts if it is an implementor, and else the first implementor that
accepts the value is taken. -/
def resolveConcrete (schema : Schema σ) (interface : InterfaceType σ) (value : Value) :
    Except TypeResolutionError String :=
  let implementors := schema.implementorsOf interface.name
  let named := (interface.resolveType.bind fun resolve => resolve value).filter (· ∈ implementors)
  match named <|> implementors.find? (schema.acceptedBy value) with
  | some name => .ok name
  | none => .error ⟨interface.name⟩

end Schema

end SelectionEngine
