import SelectionEngine.Proofs.Definitions.Clauses
import SelectionEngine.Proofs.Definitions.Lexemes

namespace SelectionEngine

open Definitions

variable {σ : Type}

namespace Layout

/-- The gaps of a layout. -/
def Separates (gap : List Char) : Prop := ∀ c ∈ gap, isSeparator c = true

theorem separates_nil : Separates [] := List.forall_mem_nil _

theorem separates_blank : Separates [' '] := by simp [Separates, isSeparator]

theorem separates_comma : Separates [',', ' '] := by simp [Separates, isSeparator]

theorem separates_indent : Separates indent := by simp [Separates, indent, isSeparator]

theorem separates_paragraph : Separates paragraph := by simp [Separates, paragraph, isSeparator]

theorem wellSpaced_single {gap : List Char} {token : Token} (separators : Separates gap) (written : token.Written) :
    WellSpaced [⟨gap, token⟩] :=
  .cons separators written (.inr nofun) .nil

theorem wellSpaced_typeRef {type : TypeRef} (named : IsName type.innerName) {gap : List Char}
    (separators : Separates gap) : WellSpaced (typeRef gap type) := by
  induction type generalizing gap with
  | builtIn scalar => exact wellSpaced_single separators (.name named)
  | named name => exact wellSpaced_single separators (.name named)
  | list inner ih =>
    have closing : WellSpaced [close (.mark ']')] := .mark separates_nil (by decide) .nil
    exact .mark separators (by decide) ((ih named separates_nil).append closing (opens_mark _ _ _))
  | nonNull inner ih =>
    have bang : WellSpaced [close (.mark '!')] := .mark separates_nil (by decide) .nil
    exact (ih named separators).append bang (opens_mark _ _ _)

theorem opens_constant (value : Value) {gap : List Char} (nonempty : gap ≠ []) (rest : List Lexeme) :
    Opens (constant gap value ++ rest) := by
  obtain ⟨token, more, shape, _⟩ := exists_constant gap value
  rw [shape]
  exact opens_gap nonempty _ _

theorem opens_items {items : List Value} {gap : List Char} (nonempty : gap ≠ []) :
    Opens (constantItems gap items) := by
  cases items with
  | nil => exact nofun
  | cons item items => exact opens_constant item nonempty _

theorem opens_entries {entries : Object} {gap : List Char} (nonempty : gap ≠ []) :
    Opens (constantEntries gap entries) := by
  cases entries with
  | nil => exact nofun
  | cons entry entries => exact opens_gap nonempty _ _

theorem written_double (d : Double) : (Token.float d.text).Written := by
  obtain ⟨numeral, text, float, _⟩ := d.exists_numeral_text
  have token : numeral.token = .float d.text := by
    rw [Numeral.token, if_neg (fun none => float none.1 none.2), text]
  exact token ▸ .number numeral

theorem wellSpaced_items {items : List Value}
    (each : ∀ item ∈ items, ∀ gap, Separates gap → WellSpaced (constant gap item)) {gap : List Char}
    (separators : Separates gap) : WellSpaced (constantItems gap items) := by
  induction items generalizing gap with
  | nil => exact .nil
  | cons item items ih =>
    obtain ⟨first, others⟩ := List.forall_mem_cons.mp each
    exact (first gap separators).append (ih others separates_comma) (opens_items (List.cons_ne_nil _ _))

theorem wellSpaced_entries {entries : Object} (names : ∀ entry ∈ entries, IsName entry.1)
    (each : ∀ entry ∈ entries, ∀ gap, Separates gap → WellSpaced (constant gap entry.2)) {gap : List Char}
    (separators : Separates gap) : WellSpaced (constantEntries gap entries) := by
  induction entries generalizing gap with
  | nil => exact .nil
  | cons entry entries ih =>
    obtain ⟨firstName, names⟩ := List.forall_mem_cons.mp names
    obtain ⟨first, others⟩ := List.forall_mem_cons.mp each
    have rest := (first [' '] separates_blank).append (ih names others separates_comma)
      (opens_entries (List.cons_ne_nil _ _))
    exact .name separators firstName (.mark separates_nil (by decide) rest) (opens_mark _ _ _)

theorem wellSpaced_constant {value : Value} (written : value.Written) :
    ∀ gap, Separates gap → WellSpaced (constant gap value) := by
  have closing {c : Char} (listed : c ∈ marks) : WellSpaced [close (.mark c)] := .mark separates_nil listed .nil
  intro gap separators
  induction written generalizing gap with
  | null => exact wellSpaced_single separators (.name (by decide))
  | bool b =>
    cases b with
    | true => exact wellSpaced_single separators (.name (by decide))
    | false => exact wellSpaced_single separators (.name (by decide))
  | @int n _ _ => exact wellSpaced_single separators (Numeral.token_ofInt n ▸ .number (.ofInt n))
  | double d => exact wellSpaced_single separators (written_double d)
  | string s => exact wellSpaced_single separators (.string s.toList)
  | list _ ih =>
    have items := wellSpaced_items ih separates_nil
    exact .mark separators (by decide) (items.append (closing (by decide)) (opens_mark _ _ _))
  | object _ names _ ih =>
    have entries := wellSpaced_entries names ih separates_nil
    exact .mark separators (by decide) (entries.append (closing (by decide)) (opens_mark _ _ _))

theorem wellSpaced_argument_of_names {argument : ArgumentDef} (name : IsName argument.name)
    (typeName : IsName argument.type.innerName) (written : ∀ value, argument.default = some value → value.Written)
    {gap : List Char} (separators : Separates gap) : WellSpaced (Layout.argument gap argument) := by
  have type := wellSpaced_typeRef typeName separates_blank
  refine .name separators name (.mark separates_nil (by decide) ?_) (opens_mark _ _ _)
  cases known : argument.default with
  | none => simpa using type
  | some value =>
    have default := wellSpaced_constant (written value known) [' '] separates_blank
    exact type.append (.mark separates_blank (by decide) default) (opens_mark _ _ _)

theorem wellSpaced_argument {argument : ArgumentDef} (written : argument.Written) {gap : List Char}
    (separators : Separates gap) : WellSpaced (Layout.argument gap argument) :=
  wellSpaced_argument_of_names written.name written.type.name (fun value given => (written.default value given).1)
    separators

theorem wellSpaced_arguments {list : List ArgumentDef} (written : ∀ argument ∈ list, argument.Written)
    {gap : List Char} (separators : Separates gap) : WellSpaced (arguments gap list) := by
  induction list generalizing gap with
  | nil => exact .nil
  | cons first rest ih =>
    obtain ⟨firstWritten, others⟩ := List.forall_mem_cons.mp written
    refine (wellSpaced_argument firstWritten separators).append (ih others separates_comma) ?_
    cases rest with
    | nil => exact nofun
    | cons _ _ => exact opens_gap (List.cons_ne_nil _ _) _ _

theorem wellSpaced_field {field : FieldDef σ} (written : field.Written) : WellSpaced (Layout.field field) := by
  have type := wellSpaced_typeRef written.type.name separates_blank
  have typed : WellSpaced (close (.mark ':') :: typeRef [' '] field.type) := .mark separates_nil (by decide) type
  rw [Layout.field]
  split
  · exact .name separates_indent written.name typed (opens_mark _ _ _)
  · have closing : WellSpaced [close (.mark ')')] := .mark separates_nil (by decide) .nil
    have arguments := (wellSpaced_arguments written.arguments separates_nil).append closing (opens_mark _ _ _)
    exact .name separates_indent written.name
      (.append (.mark separates_nil (by decide) arguments) typed (opens_mark _ _ _)) (opens_mark _ _ _)

theorem wellSpaced_lines {lines : List (List Lexeme)} (spaced : ∀ line ∈ lines, WellSpaced line)
    (opens : ∀ line ∈ lines, ∀ rest, Opens (line ++ rest)) : WellSpaced lines.flatten ∧ Opens lines.flatten := by
  induction lines with
  | nil => exact ⟨.nil, nofun⟩
  | cons line lines ih =>
    obtain ⟨first, spaced⟩ := List.forall_mem_cons.mp spaced
    obtain ⟨firstOpens, opens⟩ := List.forall_mem_cons.mp opens
    obtain ⟨others, othersOpen⟩ := ih spaced opens
    exact ⟨first.append others othersOpen, firstOpens _⟩

theorem wellSpaced_braced {lines : List (List Lexeme)} (spaced : ∀ line ∈ lines, WellSpaced line)
    (opens : ∀ line ∈ lines, ∀ rest, Opens (line ++ rest)) : WellSpaced (braced lines) := by
  have closing : WellSpaced [⟨['\n'], .mark '\x7d'⟩] := .mark (by simp [isSeparator]) (by decide) .nil
  exact .mark separates_blank (by decide) ((wellSpaced_lines spaced opens).1.append closing (opens_mark _ _ _))

theorem opens_line {line : List Lexeme} {token : Token} {rest : List Lexeme}
    (shape : line = ⟨indent, token⟩ :: rest) (more : List Lexeme) : Opens (line ++ more) := by
  rw [shape]
  exact opens_gap (List.cons_ne_nil _ _) _ _

theorem wellSpaced_fields {fields : List (FieldDef σ)} (written : ∀ field ∈ fields, field.Written) :
    WellSpaced (braced (fields.map Layout.field)) :=
  wellSpaced_braced (List.forall_mem_map.mpr fun field member => wellSpaced_field (written field member))
    (List.forall_mem_map.mpr fun _ _ => opens_line rfl)

theorem wellSpaced_inputs {fields : List ArgumentDef} (written : ∀ field ∈ fields, field.Written) :
    WellSpaced (braced (fields.map (Layout.argument indent))) :=
  wellSpaced_braced
    (List.forall_mem_map.mpr fun field member => wellSpaced_argument (written field member) separates_indent)
    (List.forall_mem_map.mpr fun _ _ => opens_line rfl)

theorem wellSpaced_interfaces {list : List String} (named : ∀ interface ∈ list, IsName interface) :
    WellSpaced (interfaces list) ∧ Opens (interfaces list) := by
  cases list with
  | nil => exact ⟨.nil, nofun⟩
  | cons first others =>
    obtain ⟨firstNamed, named⟩ := List.forall_mem_cons.mp named
    have implements : IsName "implements" := by decide
    have line {name : String} (named : IsName name) : WellSpaced [apart (.mark '&'), apart (.name name)] :=
      .mark separates_blank (by decide) (wellSpaced_single separates_blank (.name named))
    obtain ⟨spaced, opens⟩ := wellSpaced_lines
      (List.forall_mem_map.mpr fun interface member => line (named interface member))
      (List.forall_mem_map.mpr fun _ _ _ => opens_mark _ _ _)
    rw [← List.flatMap_def] at spaced opens
    have names := WellSpaced.name separates_blank firstNamed spaced opens
    exact ⟨.name separates_blank implements names (opens_gap (List.cons_ne_nil _ _) _ _),
      opens_gap (List.cons_ne_nil _ _) _ _⟩

theorem wellSpaced_typeDef {type : TypeDef σ} (written : type.Written) {gap : List Char}
    (separators : Separates gap) :
    WellSpaced (typeDef gap type) := by
  have blank {token : Token} {rest : List Lexeme} : Opens (apart token :: rest) :=
    opens_gap (List.cons_ne_nil _ _) _ _
  cases written with
  | scalar named =>
    have keyword : IsName "scalar" := by decide
    exact .name separators keyword (wellSpaced_single separates_blank (.name named)) blank
  | object named interfaces fields =>
    have keyword : IsName "type" := by decide
    obtain ⟨spaced, opens⟩ := wellSpaced_interfaces interfaces
    have rest := spaced.append (wellSpaced_fields fields) (opens_mark _ _ _)
    refine .name separators keyword (.name separates_blank named rest ?_) blank
    cases shape : Layout.interfaces _ with
    | nil => exact opens_mark _ _ _
    | cons first others => exact fun next head => opens next (by rwa [shape])
  | interface named fields =>
    have keyword : IsName "interface" := by decide
    exact .name separators keyword (.name separates_blank named (wellSpaced_fields fields) blank) blank
  | inputObject named fields =>
    have keyword : IsName "input" := by decide
    exact .name separators keyword (.name separates_blank named (wellSpaced_inputs fields) blank) blank

theorem wellSpaced_typeDefs {types : List (TypeDef σ)} (written : ∀ type ∈ types, type.Written) {gap : List Char}
    (separators : Separates gap) : WellSpaced (typeDefs gap types) := by
  induction types generalizing gap with
  | nil => exact .nil
  | cons type types ih =>
    obtain ⟨first, others⟩ := List.forall_mem_cons.mp written
    refine (wellSpaced_typeDef first separators).append (ih others separates_paragraph) ?_
    cases types with
    | nil => exact nofun
    | cons next _ =>
      obtain ⟨word, more, shape⟩ := exists_typeDef paragraph next
      rw [typeDefs, shape]
      exact opens_gap (List.cons_ne_nil _ _) _ _

theorem wellSpaced_root (kind : OperationKind) {name : String} (named : IsName name) :
    WellSpaced (root kind name) := by
  have keyword : IsName kind.name := by cases kind <;> decide
  exact .name separates_indent keyword
    (.mark separates_nil (by decide) (wellSpaced_single separates_blank (.name named))) (opens_mark _ _ _)

end Layout

namespace Schema

variable {schema : Schema σ}

theorem wellSpaced_lexemes (written : ∀ type ∈ schema.ownTypes, type.Written)
    (roots : ∀ kind, IsName (schema.rootTypeName kind)) : WellSpaced schema.lexemes := by
  have keyword : IsName "schema" := by decide
  rw [lexemes]
  split
  · exact Layout.wellSpaced_typeDefs written Layout.separates_nil
  · have lines : ∀ line ∈ schema.ownRoots.map fun kind => Layout.root kind (schema.rootTypeName kind),
      WellSpaced line :=
      List.forall_mem_map.mpr fun kind _ => Layout.wellSpaced_root kind (roots kind)
    have braced := Layout.wellSpaced_braced lines (List.forall_mem_map.mpr fun _ _ => Layout.opens_line rfl)
    have definition := WellSpaced.name Layout.separates_nil keyword braced (opens_gap (List.cons_ne_nil _ _) _ _)
    refine definition.append (Layout.wellSpaced_typeDefs written Layout.separates_paragraph) ?_
    cases schema.ownTypes with
    | nil => exact fun next absent => absurd absent (Option.not_mem_none next)
    | cons first _ =>
      obtain ⟨word, more, shape⟩ := exists_typeDef Layout.paragraph first
      rw [Layout.typeDefs, shape]
      exact opens_gap (List.cons_ne_nil _ _) _ _

/-- The text of a schema is read as it is laid out. -/
theorem ofText?_text (spaced : WellSpaced schema.lexemes) :
    Definition.ofText? schema.text = definitions? schema.lexemes := by
  rw [Definition.ofText?, text]
  split
  · next none =>
    rw [none]
    rfl
  · rw [String.toList_ofList, Lexeme.ofText?_textOfAll spaced (Lexeme.stops_of_separator rfl []) rfl]
    rfl

end Schema

end SelectionEngine
