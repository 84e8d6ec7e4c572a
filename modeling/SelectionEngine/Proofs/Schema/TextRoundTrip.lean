import SelectionEngine.Proofs.Definitions.Refused
import SelectionEngine.Proofs.Schema.Rereading
import SelectionEngine.Proofs.Schema.Validity

namespace SelectionEngine

open Definitions Reader

variable {σ : Type}

namespace TypeDef

/-- Whether a text can say of a type what a schema knows of it: its parts have
names, and its references and defaults can be written. -/
structure Printable (type : TypeDef σ) : Prop where
  name : IsName type.name
  fieldNames : ∀ field ∈ type.fields, IsName field.name
  inputNames : ∀ input ∈ type.inputs, IsName input.name
  references : ∀ reference ∈ type.references, reference.Proper
  defaults : ∀ input ∈ type.inputs, ∀ value, input.default = some value → value.Written

instance (type : TypeDef σ) : Decidable type.Printable :=
  decidable_of_iff (IsName type.name ∧ (∀ field ∈ type.fields, IsName field.name) ∧
      (∀ input ∈ type.inputs, IsName input.name) ∧ (∀ reference ∈ type.references, reference.Proper) ∧
      ∀ input ∈ type.inputs, ∀ value ∈ input.default, value.Written)
    ⟨fun ⟨name, fieldNames, inputNames, references, defaults⟩ =>
      ⟨name, fieldNames, inputNames, references, defaults⟩,
      fun ⟨name, fieldNames, inputNames, references, defaults⟩ =>
        ⟨name, fieldNames, inputNames, references, defaults⟩⟩

/-- Whether nothing in a type nests deeper than is read. -/
structure Shallow (type : TypeDef σ) : Prop where
  references : ∀ reference ∈ type.references, reference.height ≤ nestingLimit
  defaults : ∀ input ∈ type.inputs, ∀ value, input.default = some value → value.height ≤ nestingLimit

instance (type : TypeDef σ) : Decidable type.Shallow :=
  decidable_of_iff ((∀ reference ∈ type.references, reference.height ≤ nestingLimit) ∧
      ∀ input ∈ type.inputs, ∀ value ∈ input.default, value.height ≤ nestingLimit)
    ⟨fun ⟨references, defaults⟩ => ⟨references, defaults⟩, fun ⟨references, defaults⟩ => ⟨references, defaults⟩⟩

end TypeDef

namespace Schema

variable {schema : Schema σ}

/-- The types that the types of a valid schema refer to are there. -/
theorem lookup?_of_validate (valid : schema.validate = .ok ()) {type : TypeDef σ} (own : type ∈ schema.ownTypes)
    {reference : TypeRef} (referred : reference ∈ type.references) :
    ∃ target, schema.lookup? reference.innerName = some target := by
  obtain ⟨fields, inputs⟩ := valid_of_validate valid (List.mem_filter.mp own).1
  rw [TypeDef.references, List.mem_append, List.mem_map, List.mem_map] at referred
  rcases referred with ⟨field, member, rfl⟩ | ⟨input, member, rfl⟩
  · obtain ⟨target, found, _⟩ := (fields field member).type
    exact ⟨target, found⟩
  · obtain ⟨target, found, _⟩ := (inputs input member).type
    exact ⟨target, found⟩

theorem isName_builtIn (scalar : BuiltIn) : IsName scalar.name := by cases scalar <;> decide

section

variable (registered : schema.Registered) (valid : schema.validate = .ok ())
  (printable : ∀ type ∈ schema.ownTypes, type.Printable) (shallow : ∀ type ∈ schema.ownTypes, type.Shallow)

include registered printable

theorem isName_of_lookup? {name : String} {type : TypeDef σ} (found : schema.lookup? name = some type) :
    IsName name := by
  cases builtIn : BuiltIn.ofName? name with
  | some scalar =>
    obtain rfl := BuiltIn.name_of_ofName? builtIn
    exact isName_builtIn scalar
  | none =>
    have named := (printable type (registered.mem_ownTypes found builtIn)).name
    rwa [registered.name_of_lookup? found] at named

include valid shallow

theorem written_reference {type : TypeDef σ} (own : type ∈ schema.ownTypes) {reference : TypeRef}
    (referred : reference ∈ type.references) : reference.Written := by
  obtain ⟨target, found⟩ := lookup?_of_validate valid own referred
  exact ⟨isName_of_lookup? registered printable found, (printable type own).references reference referred,
    (shallow type own).references reference referred⟩

theorem written_input {type : TypeDef σ} (own : type ∈ schema.ownTypes) {input : ArgumentDef}
    (member : input ∈ type.inputs) : input.Written where
  name := (printable type own).inputNames input member
  type := written_reference registered valid printable shallow own
    (List.mem_append_right _ (List.mem_map_of_mem member))
  default value given :=
    ⟨(printable type own).defaults input member value given, (shallow type own).defaults input member value given⟩

theorem written_field {type : TypeDef σ} (own : type ∈ schema.ownTypes) {field : FieldDef σ}
    (member : field ∈ type.fields) : field.Written where
  name := (printable type own).fieldNames field member
  type := written_reference registered valid printable shallow own
    (List.mem_append_left _ (List.mem_map_of_mem member))
  arguments argument listed := by
    refine written_input registered valid printable shallow own ?_
    cases type with
    | object type => exact List.mem_flatMap.mpr ⟨field, member, listed⟩
    | interface type => exact List.mem_flatMap.mpr ⟨field, member, listed⟩
    | _ => cases member

/-- The printable types of a valid schema can be written and read back. -/
theorem written_of_printable {type : TypeDef σ} (own : type ∈ schema.ownTypes) : type.Written := by
  have found := registered.lookup?_of_ownTypes own
  have named := (printable type own).name
  have fields (field : FieldDef σ) (member : field ∈ type.fields) :=
    written_field registered valid printable shallow own member
  cases type with
  | scalar name => exact .scalar named
  | object type =>
    refine .object named (fun interface declared => ?_) fields
    obtain ⟨target, known, _⟩ := implementationFault?_eq_none.mp (registered.implements found declared)
    exact isName_of_lookup? registered printable known
  | interface type => exact .interface named fields
  | inputObject type =>
    exact .inputObject named fun field member => written_input registered valid printable shallow own member

end

/-- The text of a valid schema is accepted again, and it defines the
same roots, the same types under the same names and the same
implementors in the same order. -/
theorem printed_schema_parses_back {schema : Schema σ} (registered : schema.Registered)
    (valid : schema.validate = .ok ()) (declares : schema.ownTypes ≠ [])
    (present : ∀ type ∈ schema.ownTypes, type.isBare = false)
    (printable : ∀ type ∈ schema.ownTypes, type.Printable) (shallow : ∀ type ∈ schema.ownTypes, type.Shallow)
    (roots : ∀ kind, IsName (schema.rootTypeName kind)) :
    ∃ parsed : Schema σ, ofText schema.text {} = .ok parsed ∧
      (∀ kind, parsed.rootTypeName kind = schema.rootTypeName kind) ∧
      (∀ name, parsed.lookup? name = (schema.lookup? name).map TypeDef.unbound) ∧
      ∀ interface, parsed.implementorsOf interface = schema.implementorsOf interface := by
  have written (type : TypeDef σ) (own : type ∈ schema.ownTypes) : type.Written :=
    written_of_printable registered valid printable shallow own
  have defines : schema.definitions ≠ [] := by simp [definitions, declares]
  have accepted := ofText_text registered valid written roots present defines
  refine ⟨schema.reread, accepted, ?_, lookup?_reread registered, implementorsOf_reread registered⟩
  intro kind
  cases kind with
  | query => rfl
  | mutation => rfl

/-- A schema with types of all kinds, behaviour that its text does not have,
and a root of its own. -/
def catalogueTypes : List (TypeDef Unit) := [
  .scalar "Date",
  .inputObject { name := "Filter", fields := [
    { name := "words", type := .list (.nonNull (.builtIn .string)), default := some (.list [.string "\"a\"\n"]) },
    { name := "weight", type := .builtIn .float, default := some (.double ⟨false, 1 <<< 52, 1021, by decide⟩) },
    { name := "since", type := .named "Date"
      default := some (.object [("year", .int (-50)), ("month", .null)]) }] },
  .interface { name := "Item", fields := [{ name := "id", type := .nonNull (.builtIn .id) }] },
  .object { name := "Book", interfaces := ["Item"], isTypeOf := some fun _ => true, fields := [
    { name := "id", type := .nonNull (.builtIn .id)
      resolver := some (.immediate fun _ => .value (.string "1")) }] },
  .object { name := "Catalogue", fields := [
    { name := "items", type := .nonNull (.list (.named "Item")), arguments := [
      { name := "filter", type := .named "Filter", default := some (.object []) },
      { name := "first", type := .builtIn .int }] }] }]

def catalogueSchema : Schema Unit := setRootType (catalogueTypes.foldl .insert .empty) .query "Catalogue"

theorem registered_catalogueSchema : catalogueSchema.Registered := by
  have accepted : empty.registerAll catalogueTypes = .ok (catalogueTypes.foldl insert empty) := rfl
  exact .setRootType .query "Catalogue" (Registered.empty.registerAll accepted)

theorem printed_schema_parses_back_catalogue :
    catalogueSchema.Registered ∧ catalogueSchema.validate = .ok () ∧ catalogueSchema.ownTypes ≠ [] ∧
      (∀ type ∈ catalogueSchema.ownTypes, type.isBare = false) ∧
      (∀ type ∈ catalogueSchema.ownTypes, type.Printable) ∧ (∀ type ∈ catalogueSchema.ownTypes, type.Shallow) ∧
      (∀ kind, IsName (catalogueSchema.rootTypeName kind)) ∧
      ∃ parsed, ofText catalogueSchema.text {} = .ok parsed ∧
        (∀ kind, parsed.rootTypeName kind = catalogueSchema.rootTypeName kind) ∧
        (∀ name, parsed.lookup? name = (catalogueSchema.lookup? name).map TypeDef.unbound) ∧
        ∀ interface, parsed.implementorsOf interface = catalogueSchema.implementorsOf interface := by
  have valid : catalogueSchema.validate = .ok () := rfl
  have declares : catalogueSchema.ownTypes ≠ [] := List.cons_ne_nil _ _
  have present : ∀ type ∈ catalogueSchema.ownTypes, type.isBare = false := by decide +kernel
  have printable : ∀ type ∈ catalogueSchema.ownTypes, type.Printable := by decide +kernel
  have shallow : ∀ type ∈ catalogueSchema.ownTypes, type.Shallow := by decide +kernel
  have roots : ∀ kind, IsName (catalogueSchema.rootTypeName kind) := by
    intro kind
    cases kind <;> decide
  exact ⟨registered_catalogueSchema, valid, declares, present, printable, shallow, roots,
    printed_schema_parses_back registered_catalogueSchema valid declares present printable shallow roots⟩

end Schema

/-- Lists in one another, the innermost of them empty. -/
def Value.nested : Nat → Value
  | 0 => .list []
  | depth + 1 => .list [nested depth]

theorem Value.height_nested (depth : Nat) : (nested depth).height = depth := by
  induction depth with
  | zero => rfl
  | succ depth ih => simp [nested, height, itemsHeight, ih]

theorem Value.written_nested (depth : Nat) : (nested depth).Written := by
  induction depth with
  | zero => exact .list (List.forall_mem_nil _)
  | succ depth ih => exact .list (List.forall_mem_singleton.mpr ih)

namespace Schema

/-- An input field whose default nests deeper than is read. -/
def deepField : ArgumentDef where
  name := "rows"
  type := .named "Json"
  default := some (.nested (nestingLimit + 1))

def deepTypes : List (TypeDef Unit) := [.inputObject { name := "Matrix", fields := [deepField] }, .scalar "Json"]

def deepSchema : Schema Unit := deepTypes.foldl .insert .empty

theorem registered_deepSchema : deepSchema.Registered :=
  Registered.empty.registerAll (show empty.registerAll deepTypes = .ok deepSchema from rfl)

theorem wellSpaced_deepTypes : WellSpaced (Layout.typeDefs [] deepTypes) := by
  have line : WellSpaced (Layout.argument Layout.indent deepField) := by
    refine Layout.wellSpaced_argument_of_names (by decide) (by decide)
      (fun value given => ?_) Layout.separates_indent
    cases given
    exact Value.written_nested _
  have fields : WellSpaced (Layout.braced [Layout.argument Layout.indent deepField]) :=
    Layout.wellSpaced_braced (List.forall_mem_singleton.mpr line)
      (List.forall_mem_singleton.mpr (Layout.opens_line rfl))
  have scalar : WellSpaced (Layout.typeDef Layout.paragraph (.scalar "Json" : TypeDef Unit)) :=
    Layout.wellSpaced_typeDef (.scalar (by decide)) Layout.separates_paragraph
  have blank {token : Token} {rest : List Lexeme} : Opens (Layout.apart token :: rest) :=
    opens_gap (List.cons_ne_nil _ _) _ _
  have input :
      WellSpaced (Layout.typeDef [] (.inputObject { name := "Matrix", fields := [deepField] } : TypeDef Unit)) :=
    .name Layout.separates_nil (by decide) (.name Layout.separates_blank (by decide) fields blank) blank
  exact input.append (scalar.append .nil nofun) (opens_gap (List.cons_ne_nil _ _) _ _)

theorem definitions?_deepTypes : definitions? (Layout.typeDefs [] deepTypes) = none := by
  have type : TypeRef.Written (.named "Json") := ⟨by decide, rfl, Nat.zero_le _⟩
  have deep : nestingLimit < (Value.nested (nestingLimit + 1)).height := by
    rw [Value.height_nested]
    exact Nat.lt_succ_self _
  have broken : Broken isDescribed argumentClause Closed [Layout.argument Layout.indent deepField].flatten :=
    .here (argumentClause_deep type rfl rfl deep Layout.indent) (argument_starts deepField Layout.indent)
  have refused (rest : List Lexeme) : definition (Layout.typeDef []
      (.inputObject { name := "Matrix", fields := [deepField] } : TypeDef Unit) ++ rest) = none := by
    rw [definition_inputObject]
    exact congrArg (Option.map _) (inputClauses_broken broken rest)
  exact definitions?_of_broken (.here (fun rest => anyDefinition_refused (refused rest)) (typeDef_starts [] _))

/-- A schema whose text the parser refuses because a default nests too deep. -/
theorem deep_default_refused :
    deepSchema.Registered ∧ deepSchema.validate = .ok () ∧ deepSchema.ownTypes ≠ [] ∧
      (∀ type ∈ deepSchema.ownTypes, type.isBare = false) ∧ (∀ type ∈ deepSchema.ownTypes, type.Printable) ∧
      (∀ kind, IsName (deepSchema.rootTypeName kind)) ∧
      ¬ ∃ parsed : Schema Unit, ofText deepSchema.text {} = .ok parsed := by
  have valid : deepSchema.validate = .ok () := rfl
  have declares : deepSchema.ownTypes ≠ [] := List.cons_ne_nil _ _
  have present : ∀ type ∈ deepSchema.ownTypes, type.isBare = false :=
    List.forall_mem_cons.mpr ⟨rfl, List.forall_mem_singleton.mpr rfl⟩
  have matrix : TypeDef.Printable (.inputObject { name := "Matrix", fields := [deepField] } : TypeDef Unit) := by
    refine ⟨by decide, nofun, List.forall_mem_singleton.mpr (by decide), List.forall_mem_singleton.mpr rfl, ?_⟩
    refine List.forall_mem_singleton.mpr fun value given => ?_
    cases given
    exact Value.written_nested _
  have printable : ∀ type ∈ deepSchema.ownTypes, type.Printable :=
    List.forall_mem_cons.mpr ⟨matrix, List.forall_mem_singleton.mpr (by decide)⟩
  have roots : ∀ kind, IsName (deepSchema.rootTypeName kind) := by
    intro kind
    cases kind <;> decide
  refine ⟨registered_deepSchema, valid, declares, present, printable, roots, ?_⟩
  rintro ⟨parsed, accepted⟩
  have refused : Definition.ofText? deepSchema.text = none := by
    have lexemes : deepSchema.lexemes = Layout.typeDefs [] deepTypes := rfl
    rw [ofText?_text (lexemes ▸ wellSpaced_deepTypes), lexemes, definitions?_deepTypes]
  rw [ofText, refused] at accepted
  cases accepted

end Schema

end SelectionEngine
