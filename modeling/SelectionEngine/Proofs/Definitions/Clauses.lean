import SelectionEngine.Definitions.Source
import SelectionEngine.Proofs.Definitions.Readers
import SelectionEngine.Proofs.Schema.Checks

namespace SelectionEngine

open Definitions Reader

variable {σ : Type}

/-- The values that can be written as constants: integers have 64 bits, and
keys are distinct names. -/
inductive Value.Written : Value → Prop
  | null : Written .null
  | bool (b : Bool) : Written (.bool b)
  | int {n : Int} : -0x8000000000000000 ≤ n → n < 0x8000000000000000 → Written (.int n)
  | double (d : Double) : Written (.double d)
  | string (s : String) : Written (.string s)
  | list {items : List Value} : (∀ item ∈ items, Written item) → Written (.list items)
  | object {entries : Object} : Entries.Distinct entries → (∀ entry ∈ entries, IsName entry.1) →
      (∀ entry ∈ entries, Written entry.2) → Written (.object entries)

namespace Value

mutual

def decideWritten : (value : Value) → Decidable value.Written
  | null => isTrue .null
  | bool b => isTrue (.bool b)
  | int n =>
    decidable_of_iff (-0x8000000000000000 ≤ n ∧ n < 0x8000000000000000)
      ⟨fun bounds => .int bounds.1 bounds.2, fun | .int lower upper => ⟨lower, upper⟩⟩
  | double d => isTrue (.double d)
  | string s => isTrue (.string s)
  | list items =>
    have := decideItems items
    decidable_of_iff (∀ item ∈ items, item.Written) ⟨.list, fun | .list each => each⟩
  | object entries =>
    have := decideEntries entries
    decidable_of_iff
      (Entries.Distinct entries ∧ (∀ entry ∈ entries, IsName entry.1) ∧ ∀ entry ∈ entries, entry.2.Written)
      ⟨fun ⟨distinct, names, each⟩ => .object distinct names each,
        fun | .object distinct names each => ⟨distinct, names, each⟩⟩

def decideItems : (items : List Value) → Decidable (∀ item ∈ items, item.Written)
  | [] => isTrue nofun
  | item :: items =>
    have := item.decideWritten
    have := decideItems items
    decidable_of_iff (item.Written ∧ ∀ item ∈ items, item.Written) List.forall_mem_cons.symm

def decideEntries : (entries : List (String × Value)) → Decidable (∀ entry ∈ entries, entry.2.Written)
  | [] => isTrue nofun
  | (key, value) :: entries =>
    have := value.decideWritten
    have := decideEntries entries
    decidable_of_iff (value.Written ∧ ∀ entry ∈ entries, entry.2.Written) (by rw [List.forall_mem_cons])

end

instance (value : Value) : Decidable value.Written := value.decideWritten

end Value

/-- The references that can be written and read back if they are well formed. -/
structure TypeRef.Written (type : TypeRef) : Prop where
  name : IsName type.innerName
  proper : type.Proper
  fits : type.height ≤ nestingLimit

structure ArgumentDef.Written (argument : ArgumentDef) : Prop where
  name : IsName argument.name
  type : argument.type.Written
  default : ∀ value, argument.default = some value → value.Written ∧ value.height ≤ nestingLimit

structure FieldDef.Written (field : FieldDef σ) : Prop where
  name : IsName field.name
  type : field.type.Written
  arguments : ∀ argument ∈ field.arguments, argument.Written

/-- The types whose parts can be written and read back if they are well formed. -/
inductive TypeDef.Written : TypeDef σ → Prop
  | scalar {name : String} : IsName name → Written (.scalar name)
  | object {type : ObjectType σ} : IsName type.name → (∀ interface ∈ type.interfaces, IsName interface) →
      (∀ field ∈ type.fields, field.Written) → Written (.object type)
  | interface {type : InterfaceType σ} : IsName type.name → (∀ field ∈ type.fields, field.Written) →
      Written (.interface type)
  | inputObject {type : InputObjectType} : IsName type.name → (∀ field ∈ type.fields, field.Written) →
      Written (.inputObject type)

/-- Whether a type lacks the fields that types of its kind are made of. It is
printed with empty braces, which are not read. -/
def TypeDef.isBare : TypeDef σ → Bool
  | scalar _ => false
  | object type => type.fields.isEmpty
  | interface type => type.fields.isEmpty
  | inputObject type => type.fields.isEmpty

/-- What the text of an argument or input field says. -/
def ArgumentDef.clause (argument : ArgumentDef) : ArgumentClause where
  name := argument.name
  type := argument.type
  default := argument.default.map Value.literal

def FieldDef.clause (field : FieldDef σ) : FieldClause where
  name := field.name
  type := field.type
  arguments := field.arguments.map ArgumentDef.clause

def TypeDef.definition : TypeDef σ → Definition
  | scalar name => .scalar name
  | object type => .object type.name type.interfaces (type.fields.map FieldDef.clause)
  | interface type => .interface type.name (type.fields.map FieldDef.clause)
  | inputObject type => .inputObject type.name (type.fields.map ArgumentDef.clause)

namespace Definitions

theorem argumentClause_layout {argument : ArgumentDef} (written : argument.Written)
    (formed : argument.type.nestedWrapper? = none) (gap : List Char) {rest : List Lexeme} (closed : Closed rest) :
    argumentClause (Layout.argument gap argument ++ rest) = some (argument.clause, rest) := by
  obtain ⟨name, type, default⟩ := argument
  have directives := skipDirectives_closed closed constant
  have readType {rest : List Lexeme} (none : next (isMark '!') rest = false) :=
    typeRef_layout written.type.proper formed written.type.fits [' '] none
  cases default with
  | none =>
    have read := readType (closed '!' (by simp))
    have absent := closed '=' (by simp)
    simp [argumentClause, Layout.argument, skipDescription, isDescription, Reader.name, afterMark, Layout.close,
      read, whenNext, absent, directives, ArgumentDef.clause]
  | some value =>
    have fits := (written.default value rfl).2
    have readDefault : constant (Layout.constant [' '] value ++ rest) = some (value.literal, rest) :=
      literalWithin_layout (fun _ => none) value fits [' '] rest
    have unmarked : next (isMark '!') (⟨[' '], .mark '='⟩ :: (Layout.constant [' '] value ++ rest)) = false := rfl
    have read := readType unmarked
    simp [argumentClause, Layout.argument, skipDescription, isDescription, Reader.name, afterMark, Layout.close,
      Layout.apart, read, whenNext, isMark, directives, readDefault, ArgumentDef.clause]

theorem argument_starts (argument : ArgumentDef) (gap : List Char) (rest : List Lexeme) :
    next isDescribed (Layout.argument gap argument ++ rest) = true ∧
      Closed (Layout.argument gap argument ++ rest) :=
  ⟨rfl, closed_name _ _ _⟩

theorem arguments_series {arguments : List ArgumentDef} (written : ∀ argument ∈ arguments, argument.Written)
    (formed : ∀ argument ∈ arguments, argument.type.nestedWrapper? = none) (gap : List Char) :
    Series isDescribed argumentClause Closed (Layout.arguments gap arguments)
      (arguments.map ArgumentDef.clause) := by
  induction arguments generalizing gap with
  | nil => exact .nil
  | cons argument arguments ih =>
    obtain ⟨first, others⟩ := List.forall_mem_cons.mp written
    obtain ⟨firstFormed, othersFormed⟩ := List.forall_mem_cons.mp formed
    have rest := ih others othersFormed [',', ' ']
    exact .cons (fun _ => argumentClause_layout first firstFormed gap) (argument_starts argument gap) rest

theorem fieldClause_layout {field : FieldDef σ} (written : field.Written) (formed : field.WellFormed)
    {rest : List Lexeme} (closed : Closed rest) :
    fieldClause (Layout.field field ++ rest) = some (field.clause, rest) := by
  have directives := skipDirectives_closed closed constant
  have type := typeRef_layout written.type.proper formed.type written.type.fits [' '] (closed '!' (by simp))
  by_cases none : field.arguments = []
  · simp [fieldClause, Layout.field, none, skipDescription, isDescription, Reader.name, whenNext, isMark, afterMark,
      Layout.close, type, directives, FieldDef.clause]
  · have series := arguments_series written.arguments formed.argumentTypes []
    have present : field.arguments.map ArgumentDef.clause ≠ [] := by simpa using none
    have ends : Closed (⟨[], .mark ')'⟩ :: ⟨[], .mark ':'⟩ :: (Layout.typeRef [' '] field.type ++ rest)) :=
      closed_mark (by decide) _ _
    have arguments := series.some1 present rfl ends
    simp [fieldClause, Layout.field, none, skipDescription, isDescription, Reader.name, whenNext, isMark, afterMark,
      Layout.close, type, directives, FieldDef.clause, argumentClauses, between, arguments]

/-- Lines in braces are read one by one. -/
theorem between_braced {α : Type} {item : Reader α} {kind : Token → Bool} {lines : List (List Lexeme)}
    {items : List α}
    (series : Series kind item Closed lines.flatten items) (present : items ≠ [])
    (other : kind (.mark '\x7d') = false) (rest : List Lexeme) :
    between '\x7b' '\x7d' (some1 kind item) (Layout.braced lines ++ rest) = some (items, rest) := by
  have ends : Closed (⟨['\n'], .mark '\x7d'⟩ :: rest) := closed_mark (by decide) _ _
  have stops : next kind (⟨['\n'], .mark '\x7d'⟩ :: rest) = false := other
  have read := series.some1 present stops ends
  simp [between, Layout.braced, Layout.apart, read]

theorem fieldClauses_layout {fields : List (FieldDef σ)} (written : ∀ field ∈ fields, field.Written)
    (formed : ∀ field ∈ fields, field.WellFormed) (present : fields ≠ []) (rest : List Lexeme) :
    fieldClauses (Layout.braced (fields.map Layout.field) ++ rest) = some (fields.map FieldDef.clause, rest) := by
  have series : Series isDescribed fieldClause Closed (fields.map Layout.field).flatten
      (fields.map FieldDef.clause) :=
    .of_map (fun field member _ => fieldClause_layout (written field member) (formed field member))
      fun _ _ _ => ⟨rfl, closed_name _ _ _⟩
  exact between_braced series (by simpa using present) rfl rest

theorem inputClauses_layout {fields : List ArgumentDef} (written : ∀ field ∈ fields, field.Written)
    (formed : ∀ field ∈ fields, field.type.nestedWrapper? = none) (present : fields ≠ []) (rest : List Lexeme) :
    inputClauses (Layout.braced (fields.map (Layout.argument Layout.indent)) ++ rest) =
      some (fields.map ArgumentDef.clause, rest) := by
  have series : Series isDescribed argumentClause Closed (fields.map (Layout.argument Layout.indent)).flatten
      (fields.map ArgumentDef.clause) :=
    .of_map (fun field member _ => argumentClause_layout (written field member) (formed field member) _)
      fun _ _ _ => ⟨rfl, closed_name _ _ _⟩
  exact between_braced series (by simpa using present) rfl rest

theorem interfaceNames_layout (interfaces : List String) (lines : List (List Lexeme)) (rest : List Lexeme) :
    interfaceNames (Layout.interfaces interfaces ++ (Layout.braced lines ++ rest)) =
      some (interfaces, Layout.braced lines ++ rest) := by
  cases interfaces with
  | nil => rfl
  | cons first others =>
    have series : Series (isMark '&') (afterMark '&' Reader.name) (fun _ => True)
        (others.map fun name => [Layout.apart (.mark '&'), Layout.apart (.name name)]).flatten (others.map id) :=
      .of_map (fun _ _ _ _ => rfl) fun _ _ _ => ⟨rfl, trivial⟩
    have stops : next (isMark '&') (Layout.braced lines ++ rest) = false := rfl
    have read := series.many stops trivial
    rw [List.map_id, ← List.flatMap_def] at read
    simp only [Layout.apart] at read
    simp [interfaceNames, Layout.interfaces, Layout.apart, whenNext, isWord, afterWord, one, separated, isMark,
      Reader.name, read]

theorem skipDirectives_braced (lines : List (List Lexeme)) (rest : List Lexeme) :
    skipDirectives constant (Layout.braced lines ++ rest) = some ((), Layout.braced lines ++ rest) :=
  skipDirectives_closed (closed_mark (by decide) _ _) constant

theorem definition_object (type : ObjectType σ) (gap : List Char) (rest : List Lexeme) :
    definition (Layout.typeDef gap (.object type) ++ rest) =
      (fieldClauses (Layout.braced (type.fields.map Layout.field) ++ rest)).map fun read =>
        (.object type.name type.interfaces read.1, read.2) := by
  have interfaces := interfaceNames_layout type.interfaces (type.fields.map Layout.field) rest
  have directives := skipDirectives_braced (type.fields.map Layout.field) rest
  cases read : fieldClauses (Layout.braced (type.fields.map Layout.field) ++ rest) <;>
    simp [definition, Layout.typeDef, Layout.apart, skipDescription, isDescription, objectDefinition, Reader.name,
      interfaces, directives, read]

theorem definition_interface (type : InterfaceType σ) (gap : List Char) (rest : List Lexeme) :
    definition (Layout.typeDef gap (.interface type) ++ rest) =
      (fieldClauses (Layout.braced (type.fields.map Layout.field) ++ rest)).map fun read =>
        (.interface type.name read.1, read.2) := by
  have interfaces := interfaceNames_layout [] (type.fields.map Layout.field) rest
  have directives := skipDirectives_braced (type.fields.map Layout.field) rest
  rw [Layout.interfaces, List.nil_append] at interfaces
  cases read : fieldClauses (Layout.braced (type.fields.map Layout.field) ++ rest) <;>
    simp [definition, Layout.typeDef, Layout.apart, skipDescription, isDescription,
      interfaceDefinition, Reader.name, interfaces, directives, read]

theorem definition_inputObject (type : InputObjectType) (gap : List Char) (rest : List Lexeme) :
    definition (Layout.typeDef gap (.inputObject type : TypeDef σ) ++ rest) =
      (inputClauses (Layout.braced (type.fields.map (Layout.argument Layout.indent)) ++ rest)).map fun read =>
        (.inputObject type.name read.1, read.2) := by
  have directives := skipDirectives_braced (type.fields.map (Layout.argument Layout.indent)) rest
  cases read : inputClauses (Layout.braced (type.fields.map (Layout.argument Layout.indent)) ++ rest) <;>
    simp [definition, Layout.typeDef, Layout.apart, skipDescription, isDescription, inputDefinition, Reader.name,
      directives, read]

theorem definition_layout {type : TypeDef σ} (written : type.Written) (formed : type.WellFormed)
    (present : type.isBare = false) (gap : List Char) {rest : List Lexeme} (closed : Closed rest) :
    definition (Layout.typeDef gap type ++ rest) = some (type.definition, rest) := by
  cases written with
  | scalar name =>
    have directives := skipDirectives_closed closed constant
    simp [definition, Layout.typeDef, Layout.apart, skipDescription, isDescription, scalarDefinition, Reader.name,
      directives, TypeDef.definition]
  | object name interfaces fields =>
    rw [definition_object, fieldClauses_layout fields formed.each (List.isEmpty_eq_false_iff.mp present)]
    rfl
  | interface name fields =>
    rw [definition_interface, fieldClauses_layout fields formed.each (List.isEmpty_eq_false_iff.mp present)]
    rfl
  | inputObject name fields =>
    have types := (formed.inputs _ rfl).2
    rw [definition_inputObject, inputClauses_layout fields types (List.isEmpty_eq_false_iff.mp present)]
    rfl

/-- The entry of a schema definition that names a root type. -/
def rootOf (kind : OperationKind) (name : String) : RootClause where
  kind := kind
  typeName := name
  text := Lexeme.excerpt (Layout.root kind name)

theorem rootClause_layout (kind : OperationKind) (name : String) (rest : List Lexeme) :
    rootClause (Layout.root kind name ++ rest) = some (rootOf kind name, rest) := by
  have word : operationWord (Layout.root kind name ++ rest) =
      some (some kind, ⟨[], .mark ':'⟩ :: ⟨[' '], .name name⟩ :: rest) := by
    cases kind <;> rfl
  rw [rootClause, word]
  simp [whenNext, isName, Reader.name, rootOf]

theorem schemaDefinition_layout {roots : List (OperationKind × String)} (present : roots ≠ [])
    (rest : List Lexeme) :
    definition (⟨[], .name "schema"⟩ :: (Layout.braced (roots.map fun root => Layout.root root.1 root.2) ++ rest)) =
      some (.roots (roots.map fun root => rootOf root.1 root.2), rest) := by
  have series : Series isName rootClause Closed (roots.map fun root => Layout.root root.1 root.2).flatten
      (roots.map fun root => rootOf root.1 root.2) :=
    .of_map (fun _ _ _ _ => rootClause_layout _ _ _) fun _ _ _ => ⟨rfl, closed_name _ _ _⟩
  have read := between_braced series (by simpa using present) rfl rest
  have directives := skipDirectives_braced (roots.map fun root => Layout.root root.1 root.2) rest
  have braced :
      next (isMark '\x7b') (Layout.braced (roots.map fun root => Layout.root root.1 root.2) ++ rest) = true :=
    rfl
  simp [definition, skipDescription, isDescription, schemaDefinition, directives, whenNext, braced,
    rootClauses, read]

theorem anyDefinition_of_definition {gap : List Char} {word : String} {lexemes rest : List Lexeme}
    {read : Definition} (defined : definition (⟨gap, .name word⟩ :: lexemes) = some (read, rest)) :
    anyDefinition (⟨gap, .name word⟩ :: lexemes) = some (read, rest) := by
  simp [anyDefinition, isDescription, defined]

theorem exists_typeDef (gap : List Char) (type : TypeDef σ) : ∃ word rest,
    Layout.typeDef gap type = ⟨gap, .name word⟩ :: rest := by
  cases type <;> exact ⟨_, _, rfl⟩

theorem anyDefinition_typeDef {type : TypeDef σ} (written : type.Written) (formed : type.WellFormed)
    (present : type.isBare = false) (gap : List Char) {rest : List Lexeme} (closed : Closed rest) :
    anyDefinition (Layout.typeDef gap type ++ rest) = some (type.definition, rest) := by
  obtain ⟨word, more, shape⟩ := exists_typeDef gap type
  have read := definition_layout written formed present gap closed
  rw [shape] at read ⊢
  exact anyDefinition_of_definition read

theorem typeDef_starts (gap : List Char) (type : TypeDef σ) (rest : List Lexeme) :
    next (fun _ => true) (Layout.typeDef gap type ++ rest) = true ∧ Closed (Layout.typeDef gap type ++ rest) := by
  obtain ⟨word, more, shape⟩ := exists_typeDef gap type
  rw [shape]
  exact ⟨rfl, closed_name _ _ _⟩

theorem typeDefs_series {types : List (TypeDef σ)} (written : ∀ type ∈ types, type.Written)
    (formed : ∀ type ∈ types, type.WellFormed) (present : ∀ type ∈ types, type.isBare = false) (gap : List Char) :
    Series (fun _ => true) anyDefinition Closed (Layout.typeDefs gap types) (types.map TypeDef.definition) := by
  induction types generalizing gap with
  | nil => exact .nil
  | cons type types ih =>
    obtain ⟨first, others⟩ := List.forall_mem_cons.mp written
    obtain ⟨firstFormed, othersFormed⟩ := List.forall_mem_cons.mp formed
    obtain ⟨firstPresent, othersPresent⟩ := List.forall_mem_cons.mp present
    have rest := ih others othersFormed othersPresent Layout.paragraph
    exact .cons (fun _ => anyDefinition_typeDef first firstFormed firstPresent gap) (typeDef_starts gap type) rest

theorem definitions?_of_series {lexemes : List Lexeme} {definitions : List Definition}
    {follows : List Lexeme → Prop}
    (series : Series (fun _ => true) anyDefinition follows lexemes definitions) (present : definitions ≠ [])
    (ends : follows []) : definitions? lexemes = some definitions := by
  have read := series.some1 present next_nil ends
  rw [List.append_nil] at read
  simp [definitions?, read]

end Definitions

/-- The definitions that the text of a schema has. -/
def Schema.definitions (schema : Schema σ) : List Definition :=
  (match schema.ownRoots with
    | [] => []
    | roots => [.roots (roots.map fun kind => rootOf kind (schema.rootTypeName kind))]) ++
    schema.ownTypes.map TypeDef.definition

/-- The definition of the roots of a schema is read, whatever follows. -/
theorem Schema.anyDefinition_roots (schema : Schema σ) {kinds : List OperationKind} (named : kinds ≠ [])
    (rest : List Lexeme) :
    anyDefinition (⟨[], .name "schema"⟩ :: Layout.braced (kinds.map fun kind =>
        Layout.root kind (schema.rootTypeName kind)) ++ rest) =
      some (.roots (kinds.map fun kind => rootOf kind (schema.rootTypeName kind)), rest) := by
  have present : kinds.map (fun kind => (kind, schema.rootTypeName kind)) ≠ [] := by simpa using named
  have read := schemaDefinition_layout present rest
  rw [List.map_map, List.map_map] at read
  exact anyDefinition_of_definition read

/-- What a schema prints is read as its definitions, if there are
any and no type is bare. -/
theorem Schema.definitions?_lexemes {schema : Schema σ} (written : ∀ type ∈ schema.ownTypes, type.Written)
    (formed : ∀ type ∈ schema.ownTypes, type.WellFormed) (present : ∀ type ∈ schema.ownTypes, type.isBare = false)
    (defines : schema.definitions ≠ []) :
    definitions? schema.lexemes = some schema.definitions := by
  refine definitions?_of_series ?_ defines closed_nil
  have types (gap : List Char) := typeDefs_series written formed present gap
  cases named : schema.ownRoots with
  | nil =>
    simp only [Schema.lexemes, Schema.definitions, named]
    exact types []
  | cons kind kinds =>
    have read (rest : List Lexeme) := schema.anyDefinition_roots (List.cons_ne_nil kind kinds) rest
    simp only [Schema.lexemes, Schema.definitions, named]
    exact .cons (fun rest _ => read rest) (fun _ => ⟨rfl, closed_name [] "schema" _⟩) (types Layout.paragraph)

end SelectionEngine
