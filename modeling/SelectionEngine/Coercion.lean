import SelectionEngine.Schema.Basic
import SelectionEngine.Selection

namespace SelectionEngine

/-- Why the arguments of a field cannot be used. A path names the place, as in
`field.argument[0].name`. -/
inductive ArgumentError where
  | missing (path : String)
  | unknown (argument field : String)
  | invalidValue (path : String) (expected : TypeRef) (found : Value)
  | notAnInputType (path typeName : String)
  /-- A default value calls for itself again. -/
  | endlessDefault (path : String)
deriving DecidableEq

instance : Reportable ArgumentError where
  message
    | .missing path => s!"missing required argument {path}"
    | .unknown argument field => s!"unknown argument '{argument}' on field '{field}'"
    | .invalidValue path expected found =>
      s!"invalid value for argument {path}: expected type '{expected.text}', got {found.toJson}"
    | .notAnInputType path typeName => s!"argument {path} has type '{typeName}' which is not an input type"
    | .endlessDefault path => s!"the default value of argument {path} contains itself"
  code
    | .missing _ | .unknown _ _ => "GRAPHQL_VALIDATION_FAILED"
    | .invalidValue _ _ _ | .notAnInputType _ _ | .endlessDefault _ => "BAD_USER_INPUT"
  details
    | .missing path => [("argument", .string path)]
    | .unknown argument field => [("argument", .string argument), ("field", .string field)]
    | .invalidValue path expected _ => [("argument", .string path), ("type", .string expected.text)]
    | .notAnInputType path typeName => [("argument", .string path), ("type", .string typeName)]
    | .endlessDefault path => [("argument", .string path)]

/-- A value as an input of a built-in scalar. -/
def BuiltIn.coerce? : BuiltIn → Value → Option Value
  | .string, .string s => some (.string s)
  | .id, .string s => some (.string s)
  | .id, .int n => some (.string (toString n))
  | .int, v => v.intInput?.map .int
  | .float, v => v.floatInput?.map .double
  | .boolean, .bool b => some (.bool b)
  | .boolean, .string "true" => some (.bool true)
  | .boolean, .string "false" => some (.bool false)
  | _, _ => none

namespace Schema

variable {σ : Type}

/-- Coerces a value that has no parts of its own to coerce, at a place
that may not be null. -/
def coerceWhole (schema : Schema σ) (type : TypeRef) (value : Value) (path : String) :
    Except ArgumentError Value :=
  match type with
  | .builtIn scalar => match scalar.coerce? value with
    | some coerced => .ok coerced
    | none => .error (.invalidValue path type value)
  | .named name => match schema.lookup? name with
    -- nothing is known about the format of a registered scalar
    | some (.scalar _) => .ok value
    | some (.inputObject _) => .error (.invalidValue path type value)
    | _ => .error (.notAnInputType path name)
  | .list _ | .nonNull _ => .error (.invalidValue path type value)

/-- Coerces the fields of an input object, or the arguments of a field, in the
order of declaration. -/
def coerceFields (coerceField : ArgumentDef → String → Except ArgumentError (Option Value))
    (fields : List ArgumentDef) (path : String) : Except ArgumentError Object :=
  fields.foldlM (fun coerced field => do
    match ← coerceField field (path ++ "." ++ field.name) with
    | some value => return Entries.set field.name value coerced
    | none => return coerced) []

mutual

/-- Coerces a value to a type. `substitute` gives the value of a field that is
absent, or that is null where it must not be. -/
def coerceGiven (schema : Schema σ) (substitute : ArgumentDef → String → Except ArgumentError (Option Value)) :
    Value → TypeRef → String → Except ArgumentError Value
  | .null, type, path => if type.isNonNull then .error (.missing path) else .ok .null
  | .list items, type, path =>
    match type.nullable with
    | .list inner => (coerceItems schema substitute items inner path 0).map .list
    | other => schema.coerceWhole other (.list items) path
  | .object entries, type, path =>
    match type.nullable with
    | .named name => match schema.lookup? name with
      | some (.inputObject input) =>
        (coerceFields (fun field path => coerceEntry schema substitute field path entries) input.fields
          path).map .object
      | _ => schema.coerceWhole (.named name) (.object entries) path
    | other => schema.coerceWhole other (.object entries) path
  | value, type, path => schema.coerceWhole type.nullable value path

/-- Coerces the items of a list, which are not wrapped and not skipped. -/
def coerceItems (schema : Schema σ) (substitute : ArgumentDef → String → Except ArgumentError (Option Value)) :
    List Value → TypeRef → String → Nat → Except ArgumentError (List Value)
  | [], _, _, _ => .ok []
  | item :: items, inner, path, index => do
    let coerced ← coerceGiven schema substitute item inner s!"{path}[{index}]"
    let rest ← coerceItems schema substitute items inner path (index + 1)
    return coerced :: rest

/-- Coerces the entry of one field. A key without a field is never looked at. -/
def coerceEntry (schema : Schema σ) (substitute : ArgumentDef → String → Except ArgumentError (Option Value))
    (field : ArgumentDef) (path : String) : List (String × Value) → Except ArgumentError (Option Value)
  | [] => substitute field path
  | (key, value) :: rest =>
    if key = field.name then
      if value.isNull then
        if field.type.isNonNull then substitute field path else .ok (some .null)
      else (coerceGiven schema substitute value field.type path).map some
    else coerceEntry schema substitute field path rest

end

/-- The value of a field that is not given: its default, or nothing
if it may be left out. -/
def substituteDefault (coerceDefault : Value → TypeRef → String → Except ArgumentError Value)
    (field : ArgumentDef) (path : String) : Except ArgumentError (Option Value) :=
  match field.default with
  | some value => (coerceDefault value field.type path).map some
  | none => if field.type.isNonNull then .error (.missing path) else .ok none

/-- Coerces a value in which defaults are substituted inside defaults
less than `budget` deep. -/
def coerceWithin (schema : Schema σ) : Nat → Value → TypeRef → String → Except ArgumentError Value
  | 0, _, _, path => .error (.endlessDefault path)
  | budget + 1, value, type, path =>
    coerceGiven schema (substituteDefault (coerceWithin schema budget)) value type path

/-- The number of input object fields with a default. -/
def defaultCount (schema : Schema σ) : Nat :=
  (schema.types.flatMap fun entry => match entry.2 with
    | .inputObject input => input.fields.filter fun field => field.default.isSome
    | _ => []).length

/-- Coerces a value to a type. A chain of defaults that substitutes none of them
twice fits the budget. -/
def coerceValue (schema : Schema σ) (value : Value) (type : TypeRef) (path : String) :
    Except ArgumentError Value :=
  schema.coerceWithin (schema.defaultCount + 1) value type path

/-- The arguments that are given, with their variables replaced. -/
def givenArguments (raw : Entries String InputValue) (variableValues : Object) : Object :=
  raw.filterMap fun (name, input) => (input.substitute? variableValues).map (name, ·)

/-- Coerces the arguments of a field. Arguments that are left out and have
no default stay absent. -/
def coerceArguments (schema : Schema σ) (arguments : List ArgumentDef) (raw : Entries String InputValue)
    (variableValues : Object) (field : String) : Except ArgumentError Object :=
  match (Entries.keys raw).find? fun name => ¬ arguments.any fun argument => argument.name = name with
  | some name => .error (.unknown name field)
  | none =>
    let substitute := substituteDefault schema.coerceValue
    coerceFields (fun argument path =>
      coerceEntry schema substitute argument path (givenArguments raw variableValues)) arguments field

end Schema

end SelectionEngine
