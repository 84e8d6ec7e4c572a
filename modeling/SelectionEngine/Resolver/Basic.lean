import SelectionEngine.Report
import SelectionEngine.Task

namespace SelectionEngine

/-- What a resolver learns about the field it is asked for. -/
structure ResolveInfo where
  /-- The value of the object that the field is selected on. -/
  parent : Value
  /-- The coerced arguments. -/
  arguments : Object
  /-- Where the value goes in the response. -/
  path : Path
  parentType : String
  field : String

/-- The failure of a resolver. It is reported as it is, at the
path of the field. -/
structure ResolverError where
  message : String
  extensions : Object := []
deriving DecidableEq

namespace ResolverError

def withExtension (error : ResolverError) (key : String) (value : Value) : ResolverError :=
  { error with extensions := Entries.set key value error.extensions }

/-- The error of a resolver that broke down, with the text it left behind. -/
def panicked (payload : Option String) : ResolverError :=
  let reason := payload.getD "unknown panic payload"
  withExtension ⟨"resolver panicked: " ++ reason, []⟩ "code" (.string "RESOLVER_PANIC")

/-- The resolver's own error for another one. Only message and code are kept. -/
def ofReportable {ε : Type} [Reportable ε] (error : ε) : ResolverError :=
  withExtension ⟨Reportable.message error, []⟩ "code" (.string (Reportable.code error))

end ResolverError

instance : Reportable ResolverError where
  message := ResolverError.message
  code error := ((Entries.get? "code" error.extensions).bind Value.asString?).getD "RESOLVER_ERROR"
  details := ResolverError.extensions

/-- How a resolver ends. -/
inductive Outcome where
  | value (v : Value)
  | error (e : ResolverError)
  /-- It broke down and left a text behind, if any. -/
  | panic (payload : Option String)

def Outcome.settle : Outcome → Except ResolverError Value
  | value v => .ok v
  | error e => .error e
  | panic payload => .error (.panicked payload)

def Outcome.ofExcept : Except ResolverError Value → Outcome
  | .ok v => value v
  | .error e => error e

/-- The behaviour of a field: work on the state, in virtual time,
that ends in an outcome. -/
abbrev Resolver (σ : Type) := ResolveInfo → Task σ Outcome

namespace Resolver

variable {σ : Type}

/-- Knows its outcome at once, without the state. -/
def immediate (f : ResolveInfo → Outcome) : Resolver σ := fun info => .done (f info)

/-- Reads and writes the state in one step. -/
def acting (f : ResolveInfo → σ → Outcome × σ) : Resolver σ := fun info => .access (f info)

/-- Sleeps before it does anything. -/
def delayed (duration : Nat) (resolver : Resolver σ) : Resolver σ :=
  fun info => .after duration (resolver info)

end Resolver

end SelectionEngine
