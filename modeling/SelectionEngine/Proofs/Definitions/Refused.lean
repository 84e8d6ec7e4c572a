import SelectionEngine.Proofs.Definitions.Spacing

namespace SelectionEngine

open Definitions Reader

variable {σ : Type}

namespace Definitions

namespace Reader

variable {α : Type} {kind : Token → Bool} {item : Reader α} {follows : List Lexeme → Prop} {lexemes : List Lexeme}

/-- Parts of which a reader reads some, up to one that it does not read. -/
inductive Broken (kind : Token → Bool) (item : Reader α) (follows : List Lexeme → Prop) : List Lexeme → Prop
  | here {lexemes more : List Lexeme} :
      (∀ rest, item (lexemes ++ rest) = none) →
      (∀ rest, next kind (lexemes ++ rest) = true ∧ follows (lexemes ++ rest)) →
      Broken kind item follows (lexemes ++ more)
  | later {lexemes more : List Lexeme} {a : α} :
      (∀ rest, follows rest → item (lexemes ++ rest) = some (a, rest)) →
      (∀ rest, next kind (lexemes ++ rest) = true ∧ follows (lexemes ++ rest)) →
      Broken kind item follows more → Broken kind item follows (lexemes ++ more)

namespace Broken

theorem follows_append (broken : Broken kind item follows lexemes) (rest : List Lexeme) :
    follows (lexemes ++ rest) := by
  cases broken with
  | here _ starts =>
    rw [List.append_assoc]
    exact (starts _).2
  | later _ starts _ =>
    rw [List.append_assoc]
    exact (starts _).2

theorem atMost (broken : Broken kind item follows lexemes) {count : Nat} (enough : lexemes.length ≤ count)
    (rest : List Lexeme) : Reader.atMost count kind item (lexemes ++ rest) = none := by
  induction broken generalizing count with
  | @here lexemes more fails starts =>
    have positive := length_pos_of_next (starts []).1
    obtain ⟨count, rfl⟩ : ∃ less, count = less + 1 := Nat.exists_eq_add_one_of_ne_zero (by
      simp only [List.length_append] at enough positive
      omega)
    rw [List.append_assoc, Reader.atMost, if_pos (starts _).1, fails]
    rfl
  | @later lexemes more a reads starts broken ih =>
    have positive := length_pos_of_next (starts []).1
    obtain ⟨count, rfl⟩ : ∃ less, count = less + 1 := Nat.exists_eq_add_one_of_ne_zero (by
      simp only [List.length_append] at enough positive
      omega)
    have fails : Reader.atMost count kind item (more ++ rest) = none := ih (by
      simp only [List.length_append] at enough positive
      omega)
    rw [List.append_assoc, Reader.atMost, if_pos (starts _).1, reads _ (broken.follows_append rest)]
    simp [fails]

theorem many (broken : Broken kind item follows lexemes) (rest : List Lexeme) :
    Reader.many kind item (lexemes ++ rest) = none := by
  refine broken.atMost ?_ rest
  rw [List.length_append]
  omega

theorem some1 (broken : Broken kind item follows lexemes) (rest : List Lexeme) :
    Reader.some1 kind item (lexemes ++ rest) = none := by
  cases broken with
  | here fails starts =>
    rw [List.append_assoc, Reader.some1, fails]
    rfl
  | later reads starts broken =>
    rw [List.append_assoc, Reader.some1, reads _ (broken.follows_append rest)]
    simp [broken.many rest]

end Broken

end Reader

theorem constant_starts (gap : List Char) (value : Value) (rest : List Lexeme) :
    next (! isMark ']' ·) (Layout.constant gap value ++ rest) = true := by
  obtain ⟨token, more, shape, other⟩ := exists_constant gap value
  simp [shape, isMark, other]

mutual

/-- A printed value in which parts lie too deep is not read. -/
theorem literalWithin_deep (unknown : Reader Literal) : (value : Value) → {room : Nat} → room < value.height →
    (gap : List Char) → (rest : List Lexeme) →
    literalWithin unknown room (Layout.constant gap value ++ rest) = none
  | .list items, room, deep, gap, rest => by
    have broken := (itemsBroken unknown items deep []).many (Layout.close (.mark ']') :: rest)
    rw [literalWithin_eq, Layout.constant, List.append_assoc]
    simp [literalWith, broken]
  | .object entries, room, deep, gap, rest => by
    have broken := (entriesBroken unknown entries deep []).many (Layout.close (.mark '\x7d') :: rest)
    rw [literalWithin_eq, Layout.constant, List.append_assoc]
    simp [literalWith, broken]

theorem itemsBroken (unknown : Reader Literal) :
    (items : List Value) → {room : Nat} → room < Value.itemsHeight items →
    (gap : List Char) →
    Broken (! isMark ']' ·) (partWithin unknown room) (fun _ => True) (Layout.constantItems gap items)
  | item :: items, 0, deep, gap =>
    .here (fun _ => rfl) fun rest => ⟨constant_starts gap item rest, trivial⟩
  | item :: items, room + 1, deep, gap => by
    rw [Value.itemsHeight] at deep
    by_cases fits : item.height ≤ room
    · have others : room + 1 < Value.itemsHeight items := by omega
      exact .later (fun rest _ => literalWithin_layout unknown item fits gap rest)
        (fun rest => ⟨constant_starts gap item rest, trivial⟩) (itemsBroken unknown items others [',', ' '])
    · have first : room < item.height := by omega
      exact .here (literalWithin_deep unknown item first gap) fun rest => ⟨constant_starts gap item rest, trivial⟩

theorem entriesBroken (unknown : Reader Literal) : (entries : List (String × Value)) → {room : Nat} →
    room < Value.entriesHeight entries → (gap : List Char) →
    Broken isName (literalField (partWithin unknown room)) (fun _ => True) (Layout.constantEntries gap entries)
  | (key, value) :: entries, 0, deep, gap =>
    .here (fun rest => literalField_entry _ gap key value rest) fun rest => ⟨rfl, trivial⟩
  | (key, value) :: entries, room + 1, deep, gap => by
    rw [Value.entriesHeight] at deep
    by_cases fits : value.height ≤ room
    · have others : room + 1 < Value.entriesHeight entries := by omega
      have read (rest : List Lexeme) := literalWithin_layout unknown value fits [' '] rest
      have first (rest : List Lexeme) :
          literalField (partWithin unknown (room + 1))
            (⟨gap, .name key⟩ :: Layout.close (.mark ':') :: Layout.constant [' '] value ++ rest) =
            some ((key, some value.literal), rest) := by
        rw [literalField_entry, partWithin, read]
        rfl
      exact .later (fun rest _ => first rest) (fun rest => ⟨rfl, trivial⟩)
        (entriesBroken unknown entries others [',', ' '])
    · have first : room < value.height := by omega
      refine .here (fun rest => ?_) fun rest => ⟨rfl, trivial⟩
      rw [literalField_entry, partWithin, literalWithin_deep unknown value first]
      rfl

end

/-- An argument or input field with parts too deep in its default is not read. -/
theorem argumentClause_deep {argument : ArgumentDef} (type : argument.type.Written)
    (formed : argument.type.nestedWrapper? = none) {value : Value} (given : argument.default = some value)
    (deep : nestingLimit < value.height) (gap : List Char) (rest : List Lexeme) :
    argumentClause (Layout.argument gap argument ++ rest) = none := by
  obtain ⟨name, reference, default⟩ := argument
  subst given
  have unmarked : next (isMark '!') (⟨[' '], .mark '='⟩ :: (Layout.constant [' '] value ++ rest)) = false := rfl
  have read := typeRef_layout type.proper formed type.fits [' '] unmarked
  have refused : constant (Layout.constant [' '] value ++ rest) = none :=
    literalWithin_deep (fun _ => none) value deep [' '] rest
  simp [argumentClause, Layout.argument, skipDescription, isDescription, Reader.name, afterMark, Layout.close,
    Layout.apart, read, whenNext, isMark, refused]

theorem inputClauses_broken {lines : List (List Lexeme)}
    (broken : Broken isDescribed argumentClause Closed lines.flatten)
    (rest : List Lexeme) : inputClauses (Layout.braced lines ++ rest) = none := by
  have refused := broken.some1 (⟨['\n'], .mark '\x7d'⟩ :: rest)
  simp [inputClauses, whenNext, between, Layout.braced, Layout.apart, isMark, refused]

theorem fieldClauses_bare (rest : List Lexeme) : fieldClauses (Layout.braced [] ++ rest) = none := rfl

theorem inputClauses_bare (rest : List Lexeme) : inputClauses (Layout.braced [] ++ rest) = none := rfl

/-- A type without fields is not read. -/
theorem definition_bare {type : TypeDef σ} (bare : type.isBare = true) (gap : List Char) (rest : List Lexeme) :
    definition (Layout.typeDef gap type ++ rest) = none := by
  cases type with
  | scalar name => cases bare
  | object type =>
    have none : type.fields = [] := List.isEmpty_iff.mp bare
    rw [definition_object, none, List.map_nil, fieldClauses_bare]
    rfl
  | interface type =>
    have none : type.fields = [] := List.isEmpty_iff.mp bare
    rw [definition_interface, none, List.map_nil, fieldClauses_bare]
    rfl
  | inputObject type =>
    have none : type.fields = [] := List.isEmpty_iff.mp bare
    rw [definition_inputObject, none, List.map_nil, inputClauses_bare]
    rfl

/-- What does not define a type that is printed does not define anything else. -/
theorem anyDefinition_refused {gap : List Char} {type : TypeDef σ} {rest : List Lexeme}
    (refused : definition (Layout.typeDef gap type ++ rest) = none) :
    anyDefinition (Layout.typeDef gap type ++ rest) = none := by
  have foreign : Foreign.definition (Layout.typeDef gap type ++ rest) = none := by
    cases type <;> simp [Foreign.definition, Layout.typeDef, skipDescription, isDescription]
  have described : next isDescription (Layout.typeDef gap type ++ rest) = false := by
    cases type <;> rfl
  simp [anyDefinition, described, refused, foreign]

theorem typeDefs_broken {types : List (TypeDef σ)} (written : ∀ type ∈ types, type.Written)
    (formed : ∀ type ∈ types, type.WellFormed) (bare : ∃ type ∈ types, type.isBare = true) (gap : List Char) :
    Broken (fun _ => true) anyDefinition Closed (Layout.typeDefs gap types) := by
  induction types generalizing gap with
  | nil =>
    obtain ⟨_, member, _⟩ := bare
    cases member
  | cons type types ih =>
    obtain ⟨first, others⟩ := List.forall_mem_cons.mp written
    obtain ⟨firstFormed, othersFormed⟩ := List.forall_mem_cons.mp formed
    cases firstBare : type.isBare with
    | true =>
      exact .here (fun rest => anyDefinition_refused (definition_bare firstBare gap rest))
        (typeDef_starts gap type)
    | false =>
      have later : ∃ type ∈ types, type.isBare = true := by simpa [firstBare] using bare
      have rest := ih others othersFormed later Layout.paragraph
      exact .later (fun _ => anyDefinition_typeDef first firstFormed firstBare gap) (typeDef_starts gap type) rest

theorem definitions?_of_broken {lexemes : List Lexeme}
    (broken : Broken (fun _ => true) anyDefinition Closed lexemes) : definitions? lexemes = none := by
  have refused := broken.some1 []
  rw [List.append_nil] at refused
  rw [definitions?, refused]
  rfl

end Definitions

namespace Schema

variable {schema : Schema σ}

/-- What a schema prints is not read if there is nothing to print
or some type is bare. -/
theorem definitions?_eq_none (written : ∀ type ∈ schema.ownTypes, type.Written)
    (formed : ∀ type ∈ schema.ownTypes, type.WellFormed)
    (refused : schema.definitions = [] ∨ ∃ type ∈ schema.ownTypes, type.isBare = true) :
    definitions? schema.lexemes = none := by
  have types (gap : List Char) (bare : ∃ type ∈ schema.ownTypes, type.isBare = true) :=
    typeDefs_broken written formed bare gap
  -- roots of its own are something to print, so then only a bare type is left
  cases named : schema.ownRoots with
  | nil =>
    simp only [definitions, named, List.nil_append, List.map_eq_nil_iff] at refused
    simp only [lexemes, named]
    rcases refused with none | bare
    · rw [none]
      rfl
    · exact definitions?_of_broken (types [] bare)
  | cons kind kinds =>
    simp only [definitions, named, List.singleton_append, List.cons_ne_nil, false_or] at refused
    have read (rest : List Lexeme) := schema.anyDefinition_roots (List.cons_ne_nil kind kinds) rest
    have broken := types Layout.paragraph refused
    simp only [lexemes, named]
    exact definitions?_of_broken
      (.later (fun rest _ => read rest) (fun _ => ⟨rfl, closed_name [] "schema" _⟩) broken)

end Schema

end SelectionEngine
