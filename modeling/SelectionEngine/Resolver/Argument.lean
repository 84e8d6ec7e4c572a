import SelectionEngine.Resolver.Basic
import SelectionEngine.Text.Quoted

namespace SelectionEngine

/-- Why an argument is not what a resolver asks for. -/
structure Mismatch where
  /-- Whether the type is right and only the value does not fit. -/
  outOfRange : Bool := false
  found : String
  expected : String

namespace Mismatch

def message (mismatch : Mismatch) : String :=
  let kind := if mismatch.outOfRange then "invalid value" else "invalid type"
  s!"{kind}: {mismatch.found}, expected {mismatch.expected}"

end Mismatch

namespace Value

def floatingPoint (d : Double) : String :=
  "floating point `" ++ String.ofList d.text ++ "`"

/-- Names a value in a mismatch. -/
def found : Value → String
  | null => "null"
  | bool b => s!"boolean `{b}`"
  | int n => match Double.ofInt? n with
    | some d => floatingPoint d
    | none => s!"integer `{n}`"
  | double d => floatingPoint d
  | string s => "string " ++ String.ofList (Text.quoted s.toList)
  | list _ => "sequence"
  | object _ => "map"

def mismatch (expected : String) (v : Value) : Mismatch := { found := v.found, expected }

def integerIn (low high : Int) (expected : String) : Value → Except Mismatch Int
  | int n =>
    if low ≤ n ∧ n < high then .ok n
    else .error { outOfRange := true, found := s!"integer `{n}`", expected }
  | v => .error (v.mismatch expected)

def toInt64 : Value → Except Mismatch Int := integerIn (-0x8000000000000000) 0x8000000000000000 "i64"

def toWord64 : Value → Except Mismatch Int := integerIn 0 UInt64.size "u64"

def toDouble (v : Value) : Except Mismatch Double :=
  match v.asDouble? with
  | some d => .ok d
  | none => .error (v.mismatch "f64")

def toBool : Value → Except Mismatch Bool
  | bool b => .ok b
  | v => .error (v.mismatch "a boolean")

def toText : Value → Except Mismatch String
  | string s => .ok s
  | v => .error (v.mismatch "a string")

def toObject : Value → Except Mismatch Object
  | object entries => .ok entries
  | v => .error (v.mismatch "a map")

/-- Lets null through as nothing. -/
def optional {α : Type} (decode : Value → Except Mismatch α) : Value → Except Mismatch (Option α)
  | null => .ok none
  | v => (decode v).map some

end Value

namespace ResolveInfo

/-- Decodes an argument. One that is absent counts as null. -/
def argument {α : Type} (info : ResolveInfo) (decode : Value → Except Mismatch α) (name : String) :
    Except ResolverError α :=
  match decode ((Entries.get? name info.arguments).getD .null) with
  | .ok a => .ok a
  | .error mismatch => .error ⟨s!"invalid argument '{name}': {mismatch.message}", []⟩

end ResolveInfo

end SelectionEngine
