import Mathlib.Data.Set.Basic
import SelectionEngine.Proofs.Definitions.Clauses

namespace SelectionEngine.Definitions

namespace Reader

variable {α β : Type} {kinds more : Set (Token → Bool)} {kind : Token → Bool} {least others : Nat} {item : Reader α}
  {rest other lexemes : List Lexeme}

/-- Whether the next token is of the same of these kinds. -/
def Alike (kinds : Set (Token → Bool)) (rest other : List Lexeme) : Prop :=
  ∀ kind ∈ kinds, next kind rest = next kind other

theorem alike_cons (lexeme : Lexeme) (rest other : List Lexeme) : Alike kinds (lexeme :: rest) (lexeme :: other) :=
  fun _ _ => rfl

theorem Alike.append (alike : Alike kinds rest other) (front : List Lexeme) :
    Alike kinds (front ++ rest) (front ++ other) := by
  cases front with
  | nil => exact alike
  | cons lexeme front => exact alike_cons lexeme _ _

/-- Whether what is read off the front is read there whatever follows
it, if that starts with the same of these kinds of tokens. At least so
many lexemes are read. -/
def Local (kinds : Set (Token → Bool)) (least : Nat) (item : Reader α) : Prop :=
  ∀ lexemes a rest, item lexemes = some (a, rest) → ∃ front, lexemes = front ++ rest ∧ least ≤ front.length ∧
    ∀ other, Alike kinds rest other → item (front ++ other) = some (a, other)

/-- Reads something and then what it leads to. -/
def andThen (item : Reader α) (next : α → Reader β) : Reader β := fun lexemes =>
  (item lexemes).bind fun read => next read.1 read.2

/-- Passes over a token of a kind, if it is there. -/
def skip (kind : Token → Bool) : Reader Unit := fun lexemes =>
  some ((), if next kind lexemes then lexemes.drop 1 else lexemes)

theorem one_eq_some {kind : Token → Bool} : one kind lexemes = some rest ↔
    ∃ lexeme, kind lexeme.token = true ∧ lexemes = lexeme :: rest := by
  cases lexemes with
  | nil => simp [one]
  | cons lexeme lexemes =>
    rw [one]
    constructor
    · intro read
      split at read
      · next known =>
        cases read
        exact ⟨lexeme, known, rfl⟩
      · cases read
    · rintro ⟨_, known, ⟨⟩⟩
      exact if_pos known

theorem atMost_of_next (stops : next kind lexemes = false) (count : Nat) (item : Reader α) :
    atMost count kind item lexemes = some ([], lexemes) := by
  cases count <;> simp [atMost, stops]

theorem local_done (a : α) : Local kinds 0 fun lexemes => some (a, lexemes) := by
  rintro lexemes _ _ ⟨⟩
  exact ⟨[], rfl, Nat.le_refl 0, fun _ _ => rfl⟩

theorem local_none : Local kinds least fun _ => (none : Option (α × List Lexeme)) := by
  intro lexemes a rest read
  cases read

theorem local_name : Local kinds 1 name := by
  intro lexemes text rest read
  unfold name at read
  split at read
  · cases read
    exact ⟨[_], rfl, Nat.le_refl 1, fun _ _ => rfl⟩
  · cases read

theorem local_skip (tested : kind ∈ kinds) : Local kinds 0 (skip kind) := by
  rintro lexemes _ _ ⟨⟩
  cases known : next kind lexemes with
  | true =>
    cases lexemes with
    | nil => cases known
    | cons lexeme lexemes =>
      have same (other : List Lexeme) : next kind (lexeme :: other) = true := known
      exact ⟨[lexeme], rfl, Nat.zero_le _, fun other _ => by simp [skip, same]⟩
  | false =>
    refine ⟨[], rfl, Nat.le_refl 0, fun other alike => ?_⟩
    have stops : next kind other = false := by
      rw [← known]
      exact (alike kind tested).symm
    simp [skip, stops]

namespace Local

theorem mono (itemLocal : Local kinds least item) (sub : kinds ⊆ more) (fewer : others ≤ least) :
    Local more others item := by
  intro lexemes a rest read
  obtain ⟨front, shape, enough, again⟩ := itemLocal _ _ _ read
  exact ⟨front, shape, Nat.le_trans fewer enough,
    fun other alike => again other fun kind tested => alike kind (sub tested)⟩

theorem univ (itemLocal : Local kinds least item) : Local Set.univ least item :=
  itemLocal.mono (Set.subset_univ kinds) (Nat.le_refl least)

theorem andThen {next : α → Reader β} (first : Local kinds least item) (second : ∀ a, Local kinds others (next a)) :
    Local kinds (least + others) (item.andThen next) := by
  intro lexemes b rest read
  obtain ⟨⟨a, middle⟩, readItem, readOthers⟩ := Option.bind_eq_some_iff.mp read
  obtain ⟨front, rfl, enough, again⟩ := first _ _ _ readItem
  obtain ⟨back, rfl, enoughOthers, finish⟩ := second a _ _ _ readOthers
  refine ⟨front ++ back, (List.append_assoc ..).symm, ?_, fun other alike => ?_⟩
  · rw [List.length_append]
    exact Nat.add_le_add enough enoughOthers
  · rw [List.append_assoc, Reader.andThen, again _ (alike.append back)]
    exact finish other alike

theorem map (itemLocal : Local kinds least item) (f : α → β) :
    Local kinds least fun lexemes => (item lexemes).map fun (a, rest) => (f a, rest) := by
  intro lexemes b rest read
  obtain ⟨⟨a, rest⟩, readItem, same⟩ := Option.map_eq_some_iff.mp read
  cases same
  obtain ⟨front, shape, enough, again⟩ := itemLocal _ _ _ readItem
  exact ⟨front, shape, enough, fun other alike => by simp [again other alike]⟩

theorem choose {first second : Reader α} (tested : kind ∈ kinds) (firstLocal : Local kinds least first)
    (secondLocal : Local kinds least second) :
    Local kinds least fun lexemes => if next kind lexemes then first lexemes else second lexemes := by
  intro lexemes a rest read
  dsimp only at read
  split at read
  · next known =>
    obtain ⟨front, rfl, enough, again⟩ := firstLocal _ _ _ read
    refine ⟨front, rfl, enough, fun other alike => ?_⟩
    dsimp only
    rw [← alike.append front kind tested, if_pos known]
    exact again other alike
  · next known =>
    obtain ⟨front, rfl, enough, again⟩ := secondLocal _ _ _ read
    refine ⟨front, rfl, enough, fun other alike => ?_⟩
    dsimp only
    rw [← alike.append front kind tested, if_neg known]
    exact again other alike

theorem whenNext (itemLocal : Local kinds least item) (tested : kind ∈ kinds) (absent : α) :
    Local kinds 0 (whenNext kind item absent) :=
  .choose tested (itemLocal.mono (Set.Subset.refl kinds) (Nat.zero_le least)) (local_done absent)

/-- After one token of a kind it does not matter which one it is. -/
theorem after (itemLocal : Local kinds least item) (kind : Token → Bool) :
    Local kinds (least + 1) fun lexemes => (one kind lexemes).bind item := by
  intro lexemes a rest read
  obtain ⟨middle, marked, readItem⟩ := Option.bind_eq_some_iff.mp read
  obtain ⟨lexeme, known, rfl⟩ := one_eq_some.mp marked
  obtain ⟨front, rfl, enough, again⟩ := itemLocal _ _ _ readItem
  refine ⟨lexeme :: front, rfl, Nat.succ_le_succ enough, fun other alike => ?_⟩
  have marked : one kind (lexeme :: (front ++ other)) = some (front ++ other) :=
    one_eq_some.mpr ⟨lexeme, known, rfl⟩
  dsimp only
  rw [List.cons_append, marked]
  exact again other alike

theorem afterMark (itemLocal : Local kinds least item) (c : Char) : Local kinds (least + 1) (afterMark c item) :=
  itemLocal.after (isMark c)

theorem afterWord (itemLocal : Local kinds least item) (word : String) :
    Local kinds (least + 1) (afterWord word item) :=
  itemLocal.after (isWord word)

/-- What a mark closes is read whatever follows the mark. -/
theorem closed (itemLocal : Local more least item) (f : α → β) (closing : Char) :
    Local kinds (least + 1) fun lexemes =>
      (item lexemes).bind fun read => (mark closing read.2).bind fun rest => some (f read.1, rest) := by
  intro lexemes b rest read
  obtain ⟨⟨a, middle⟩, readItem, closes⟩ := Option.bind_eq_some_iff.mp read
  obtain ⟨rest, marked, same⟩ := Option.bind_eq_some_iff.mp closes
  cases same
  obtain ⟨lexeme, known, rfl⟩ := one_eq_some.mp marked
  obtain ⟨front, rfl, enough, again⟩ := itemLocal _ _ _ readItem
  refine ⟨front ++ [lexeme], by simp, by simpa using enough, fun other _ => ?_⟩
  -- The item only sees the mark after it, so what follows the
  -- mark need not be alike.
  have marked : mark closing (lexeme :: other) = some other := one_eq_some.mpr ⟨lexeme, known, rfl⟩
  simp [again _ (alike_cons lexeme _ other), marked]

theorem between (itemLocal : Local more least item) (opening closing : Char) :
    Local kinds (least + 1 + 1) (between opening closing item) := by
  have steps := (itemLocal.closed id closing : Local kinds (least + 1) _).after (isMark opening)
  exact steps

/-- The items are read again with any bound that is no less than
the number of lexemes. -/
theorem atMost (itemLocal : Local kinds 1 item) (tested : kind ∈ kinds) {count : Nat} {items : List α}
    (read : atMost count kind item lexemes = some (items, rest)) (enough : lexemes.length ≤ count) :
    ∃ front, lexemes = front ++ rest ∧ ∀ other, Alike kinds rest other → ∀ count, (front ++ other).length ≤ count →
      Reader.atMost count kind item (front ++ other) = some (items, other) := by
  have stop {rest : List Lexeme} (stops : next kind rest = false) : ∃ front, rest = front ++ rest ∧
      ∀ other, Alike kinds rest other → ∀ count, (front ++ other).length ≤ count →
        Reader.atMost count kind item (front ++ other) = some (([] : List α), other) :=
    ⟨[], rfl, fun other alike count _ => atMost_of_next ((alike kind tested).symm.trans stops) count item⟩
  induction count generalizing lexemes items with
  | zero =>
    cases read
    obtain rfl := List.length_eq_zero_iff.mp (Nat.le_zero.mp enough)
    exact stop rfl
  | succ count ih =>
    unfold Reader.atMost at read
    split at read
    · next starts =>
      obtain ⟨⟨first, middle⟩, readFirst, read⟩ := Option.bind_eq_some_iff.mp read
      obtain ⟨⟨others, last⟩, readOthers, same⟩ := Option.bind_eq_some_iff.mp read
      cases same
      obtain ⟨front, rfl, taken, again⟩ := itemLocal _ _ _ readFirst
      rw [List.length_append] at enough
      obtain ⟨back, rfl, finish⟩ := ih readOthers (by omega)
      refine ⟨front ++ back, (List.append_assoc ..).symm, fun other alike count enough => ?_⟩
      simp only [List.length_append] at enough
      obtain ⟨count, rfl⟩ : ∃ less, count = less + 1 := Nat.exists_eq_add_one_of_ne_zero (by omega)
      have next := finish other alike count (by rw [List.length_append]; omega)
      rw [(alike.append back).append front kind tested] at starts
      rw [List.append_assoc, Reader.atMost, if_pos starts, again _ (alike.append back)]
      simp [next]
    · next stops =>
      cases read
      exact stop (Bool.eq_false_iff.mpr stops)

theorem many (itemLocal : Local kinds 1 item) (tested : kind ∈ kinds) : Local kinds 0 (many kind item) := by
  intro lexemes items rest read
  obtain ⟨front, shape, again⟩ := itemLocal.atMost tested read (Nat.le_refl _)
  exact ⟨front, shape, Nat.zero_le _, fun other alike => again other alike _ (Nat.le_refl _)⟩

theorem some1 (itemLocal : Local kinds 1 item) (tested : kind ∈ kinds) : Local kinds 1 (some1 kind item) := by
  have steps := itemLocal.andThen fun first => (itemLocal.many tested).andThen fun others =>
    local_done (first :: others)
  exact steps

theorem separated {c : Char} (itemLocal : Local kinds 1 item) (tested : isMark c ∈ kinds) :
    Local kinds 1 (separated c item) := by
  have following := ((itemLocal.afterMark c).mono (Set.Subset.refl kinds) (Nat.le_add_left 1 1)).many tested
  have steps := (local_skip tested).andThen fun _ => itemLocal.andThen fun first =>
    following.andThen fun others => local_done (first :: others)
  exact steps

end Local

end Reader

open Reader

/-- The tokens by which a definition may go on where it could also end. -/
def continuing : Set (Token → Bool) :=
  {kind | (∃ c, kind = isMark c) ∨ kind = isWord "implements" ∨ kind = isWord "repeatable"}

variable {least : Nat}

theorem isMark_continuing (c : Char) : isMark c ∈ continuing := .inl ⟨c, rfl⟩

theorem local_bang (type : TypeRef) : Local continuing 0 fun lexemes =>
    match one (isMark '!') lexemes with
    | some rest => some (.nonNull type, rest)
    | none => some (type, lexemes) := by
  have marked (lexeme : Lexeme) (known : isMark '!' lexeme.token = true) (rest : List Lexeme) :
      one (isMark '!') (lexeme :: rest) = some rest := one_eq_some.mpr ⟨lexeme, known, rfl⟩
  intro lexemes read rest known
  dsimp only at known
  split at known
  · next found =>
    cases known
    obtain ⟨lexeme, bang, rfl⟩ := one_eq_some.mp found
    exact ⟨[lexeme], rfl, Nat.zero_le _, fun other _ => by simp [marked lexeme bang]⟩
  · next missing =>
    cases known
    refine ⟨[], rfl, Nat.le_refl 0, fun other alike => ?_⟩
    have none : one (isMark '!') other = none := by
      refine Option.eq_none_iff_forall_ne_some.mpr fun after found => ?_
      obtain ⟨lexeme, bang, rfl⟩ := one_eq_some.mp found
      have same := alike _ (isMark_continuing '!')
      cases lexemes with
      | nil => exact absurd (same.trans bang) Bool.false_ne_true
      | cons first rest => exact absurd (missing.symm.trans (marked first (same.trans bang) rest)) nofun
    simp [none]

theorem local_typeWith {inner : Reader TypeRef} (innerLocal : Local continuing least inner) :
    Local continuing 1 (typeWith inner) := by
  have list := (innerLocal.between '[' ']' : Local continuing (least + 1 + 1) _).map TypeRef.list
  have bare := (local_name.map TypeRef.ofName).andThen local_bang
  have steps := Local.choose (isMark_continuing '[')
    ((list.andThen local_bang).mono (Set.Subset.refl _) (Nat.le_add_left 1 (least + 1))) bare
  exact steps

theorem local_typeWithin (room : Nat) : Local continuing 1 (typeWithin room) := by
  induction room with
  | zero => exact @local_typeWith 0 _ local_none
  | succ room ih => exact local_typeWith ih

theorem local_typeRef : Local continuing 1 typeRef := local_typeWithin nestingLimit

theorem local_literalField {item : Reader Literal} (itemLocal : Local continuing 1 item) :
    Local continuing 1 (literalField item) := by
  have value := ((itemLocal.afterMark ':').map some).whenNext (isMark_continuing ':') none
  have steps := local_name.andThen fun key => value.andThen fun value => local_done (key, value)
  exact steps

theorem local_literalWith {item : Reader Literal} (itemLocal : Local continuing 1 item) :
    Local continuing 1 (literalWith (fun _ => none) item) := by
  intro lexemes literal rest read
  unfold literalWith at read
  split at read
  iterate 5
    cases read
    exact ⟨[_], rfl, Nat.le_refl 1, fun _ _ => rfl⟩
  · next gap c lexemes =>
    split at read
    · next list =>
      subst list
      have items := itemLocal.univ.many (Set.mem_univ (! isMark ']' ·))
      have closed : Local continuing 1 _ := items.closed Literal.list ']'
      obtain ⟨front, rfl, _, again⟩ := closed _ _ _ read
      exact ⟨⟨gap, .mark '['⟩ :: front, rfl, Nat.le_add_left 1 _, again⟩
    · split at read
      · next object =>
        subst object
        have fields := (local_literalField itemLocal).univ.many (Set.mem_univ isName)
        have closed : Local continuing 1 _ := fields.closed Literal.object '\x7d'
        obtain ⟨front, rfl, _, again⟩ := closed _ _ _ read
        exact ⟨⟨gap, .mark '\x7b'⟩ :: front, rfl, Nat.le_add_left 1 _, again⟩
      · cases read
  · cases read

theorem local_constant : Local continuing 1 constant := by
  have within (room : Nat) : Local continuing 1 (literalWithin (fun _ => none) room) := by
    induction room with
    | zero => exact local_literalWith local_none
    | succ room ih => exact local_literalWith ih
  exact within nestingLimit

theorem local_skipDirectives : Local continuing 0 (skipDirectives constant) := by
  have fields := (local_literalField local_constant).univ.some1 (Set.mem_univ isName)
  have arguments := (fields.between '(' ')' : Local continuing _ _).andThen fun _ => local_done ()
  have directive := (local_name.afterMark '@').andThen fun _ => arguments.whenNext (isMark_continuing '(') ()
  have steps := ((directive.mono (Set.Subset.refl _) (Nat.le_add_left 1 1)).many (isMark_continuing '@')).andThen
    fun _ => local_done ()
  exact steps

theorem local_described : Local Set.univ 1 fun lexemes => name (skipDescription lexemes) := by
  have steps := (local_skip (Set.mem_univ isDescription)).andThen fun _ => local_name
  exact steps

theorem local_argumentClause : Local Set.univ 1 argumentClause := by
  have default := ((local_constant.afterMark '=').map some).whenNext (isMark_continuing '=') none
  have steps := local_described.andThen fun name => (local_typeRef.afterMark ':').univ.andThen fun type =>
    default.univ.andThen fun default => local_skipDirectives.univ.andThen fun _ =>
      local_done ({ name, type, default } : ArgumentClause)
  exact steps.mono (Set.Subset.refl _) (by decide)

theorem local_argumentClauses {kinds : Set (Token → Bool)} : Local kinds 3 argumentClauses :=
  (local_argumentClause.some1 (Set.mem_univ _)).between '(' ')'

theorem local_fieldClause : Local Set.univ 1 fieldClause := by
  have steps := local_described.andThen fun name =>
    (local_argumentClauses.whenNext (Set.mem_univ (isMark '(')) []).andThen fun arguments =>
      (local_typeRef.afterMark ':').univ.andThen fun type => local_skipDirectives.univ.andThen fun _ =>
        local_done ({ name, type, arguments } : FieldClause)
  exact steps.mono (Set.Subset.refl _) (by decide)

theorem local_fieldClauses : Local continuing 0 fieldClauses :=
  ((local_fieldClause.some1 (Set.mem_univ _)).between '\x7b' '\x7d').whenNext (isMark_continuing '\x7b') []

theorem local_inputClauses : Local continuing 0 inputClauses :=
  ((local_argumentClause.some1 (Set.mem_univ _)).between '\x7b' '\x7d').whenNext (isMark_continuing '\x7b') []

theorem local_interfaceNames : Local continuing 0 interfaceNames :=
  ((local_name.separated (isMark_continuing '&')).afterWord "implements").whenNext (.inr (.inl rfl)) []

theorem local_operationWord : Local Set.univ 1 operationWord := by
  intro lexemes kind rest read
  unfold operationWord at read
  split at read
  iterate 3
    cases read
    exact ⟨[_], rfl, Nat.le_refl 1, fun _ _ => rfl⟩
  · cases read

theorem local_rootClause : Local Set.univ 1 rootClause := by
  have typeNameLocal := (local_name.map some).whenNext (Set.mem_univ isName) none
  intro lexemes clause rest read
  obtain ⟨⟨kind, middle⟩, readKind, readOthers⟩ := Option.bind_eq_some_iff.mp read
  obtain ⟨after, marked, readOthers⟩ := Option.bind_eq_some_iff.mp readOthers
  obtain ⟨⟨typeName, rest⟩, readType, same⟩ := Option.bind_eq_some_iff.mp readOthers
  cases same
  obtain ⟨lexeme, colon, rfl⟩ := one_eq_some.mp marked
  obtain ⟨back, rfl, _, againType⟩ := typeNameLocal _ _ _ readType
  obtain ⟨front, rfl, taken, againKind⟩ := local_operationWord _ _ _ readKind
  have shape (other : List Lexeme) : (front ++ lexeme :: back) ++ other =
      front ++ lexeme :: (back ++ other) := by simp
  -- The clause keeps a copy of its lexemes, which the reader counts off from
  -- what is left after it.
  have excerpt (other : List Lexeme) : (front ++ lexeme :: (back ++ other)).take
      ((front ++ lexeme :: (back ++ other)).length - other.length) = front ++ lexeme :: back := by
    rw [← shape, List.length_append, Nat.add_sub_cancel, List.take_left]
  have follows (other : List Lexeme) : mark ':' (lexeme :: (back ++ other)) = some (back ++ other) :=
    one_eq_some.mpr ⟨lexeme, colon, rfl⟩
  have enough : 1 ≤ (front ++ lexeme :: back).length := by
    rw [List.length_append]
    exact Nat.le_add_right_of_le taken
  refine ⟨front ++ lexeme :: back, (shape rest).symm, enough, fun other alike => ?_⟩
  have known := againType other alike
  rw [shape, rootClause, againKind _ (alike_cons lexeme _ _)]
  simp only [Option.bind_eq_bind, Option.bind_some, Option.pure_def, follows, known, excerpt]

theorem local_rootClauses {kinds : Set (Token → Bool)} : Local kinds 3 rootClauses :=
  (local_rootClause.some1 (Set.mem_univ _)).between '\x7b' '\x7d'

theorem local_scalarDefinition : Local continuing 0 scalarDefinition := by
  have steps := local_name.andThen fun name => local_skipDirectives.andThen fun _ =>
    local_done (Definition.scalar name)
  exact steps.mono (Set.Subset.refl _) (Nat.zero_le _)

theorem local_objectDefinition : Local continuing 0 objectDefinition := by
  have steps := local_name.andThen fun name => local_interfaceNames.andThen fun interfaces =>
    local_skipDirectives.andThen fun _ => local_fieldClauses.andThen fun fields =>
      local_done (Definition.object name interfaces fields)
  exact steps.mono (Set.Subset.refl _) (Nat.zero_le _)

theorem local_interfaceDefinition : Local continuing 0 interfaceDefinition := by
  have steps := local_name.andThen fun name => local_interfaceNames.andThen fun _ =>
    local_skipDirectives.andThen fun _ => local_fieldClauses.andThen fun fields =>
      local_done (Definition.interface name fields)
  exact steps.mono (Set.Subset.refl _) (Nat.zero_le _)

theorem local_inputDefinition : Local continuing 0 inputDefinition := by
  have steps := local_name.andThen fun name => local_skipDirectives.andThen fun _ =>
    local_inputClauses.andThen fun fields => local_done (Definition.inputObject name fields)
  exact steps.mono (Set.Subset.refl _) (Nat.zero_le _)

theorem local_schemaDefinition : Local continuing 0 schemaDefinition := by
  have steps := local_skipDirectives.andThen fun _ =>
    (local_rootClauses.whenNext (isMark_continuing '\x7b') []).andThen fun clauses =>
      local_done (Definition.roots clauses)
  exact steps

theorem local_directiveDefinition : Local continuing 0 directiveDefinition := by
  have place : Local continuing 1 directiveLocation := by
    have known (word : String) : Local continuing 0 fun lexemes =>
        if directiveLocations.contains word then some (word, lexemes) else none := by
      split
      · exact local_done word
      · exact local_none
    have steps := local_name.andThen known
    exact steps
  have steps := (local_name.afterMark '@').andThen fun _ =>
    (local_argumentClauses.whenNext (isMark_continuing '(') []).andThen fun _ =>
      (@local_skip _ (isWord "repeatable") (.inr (.inr rfl))).andThen fun _ =>
        ((place.separated (isMark_continuing '|')).afterWord "on").andThen fun _ => local_done Definition.directive
  exact steps.mono (Set.Subset.refl _) (Nat.zero_le _)

/-- The words that definitions of what schemas are made of start with. -/
def keywords : List String := ["scalar", "type", "interface", "input", "schema", "directive"]

/-- What follows the keyword of a definition is read by a reader of its own. -/
theorem exists_keyword {lexemes rest : List Lexeme} {read : Definition}
    (known : definition lexemes = some (read, rest)) :
    ∃ gap, ∃ word ∈ keywords, ∃ (body : Reader Definition) (after : List Lexeme),
      skipDescription lexemes = ⟨gap, .name word⟩ :: after ∧ body after = some (read, rest) ∧
      Local continuing 0 body ∧
      ∀ {lexemes gap after}, skipDescription lexemes = ⟨gap, .name word⟩ :: after →
        definition lexemes = body after := by
  unfold definition at known
  split at known
  · next shape =>
    exact ⟨_, _, by decide, _, _, shape, known, local_scalarDefinition, fun shape => by simp [definition, shape]⟩
  · next shape =>
    exact ⟨_, _, by decide, _, _, shape, known, local_objectDefinition, fun shape => by simp [definition, shape]⟩
  · next shape =>
    exact ⟨_, _, by decide, _, _, shape, known, local_interfaceDefinition, fun shape => by simp [definition, shape]⟩
  · next shape =>
    exact ⟨_, _, by decide, _, _, shape, known, local_inputDefinition, fun shape => by simp [definition, shape]⟩
  · next shape =>
    exact ⟨_, _, by decide, _, _, shape, known, local_schemaDefinition, fun shape => by simp [definition, shape]⟩
  · next shape =>
    exact ⟨_, _, by decide, _, _, shape, known, local_directiveDefinition, fun shape => by simp [definition, shape]⟩
  · cases known

/-- Whether nothing stands next by which a definition could go on. -/
def Boundary (rest : List Lexeme) : Prop := ∀ kind ∈ continuing, next kind rest = false

theorem boundary_nil : Boundary [] := fun _ _ => rfl

theorem Boundary.alike {rest other : List Lexeme} (first : Boundary rest) (second : Boundary other) :
    Alike continuing rest other :=
  fun kind tested => (first kind tested).trans (second kind tested).symm

theorem not_continuing_keyword : ∀ word ∈ keywords, ∀ kind ∈ continuing, kind (.name word) = false := by
  rintro word listed kind (⟨c, rfl⟩ | rfl | rfl)
  · rfl
  · revert word
    decide
  · revert word
    decide

theorem not_continuing_description {token : Token} (description : isDescription token = true) :
    ∀ kind ∈ continuing, kind token = false := by
  cases token with
  | string body | block body => rintro kind (⟨c, rfl⟩ | rfl | rfl) <;> rfl
  | _ => cases description

/-- Whether lexemes are read as a definition up to where another one may start,
whatever stands before their first token. -/
def Defines (read : Definition) : List Lexeme → Prop
  | [] => False
  | first :: more => (∀ kind ∈ continuing, kind first.token = false) ∧
      ∀ gap rest, Boundary rest → anyDefinition ({ first with gap } :: (more ++ rest)) = some (read, rest)

/-- A definition that schemas are made of is read as one, where no comma
follows its description. -/
theorem anyDefinition_eq_some {lexemes rest : List Lexeme} {read : Definition}
    (own : ∀ text, read ≠ .foreign text) :
    anyDefinition lexemes = some (read, rest) ↔
      (next isDescription lexemes && nextFollowsComma (lexemes.drop 1)) = false ∧
        definition lexemes = some (read, rest) := by
  rw [anyDefinition]
  constructor
  · intro known
    split at known
    · cases known
    · next noComma =>
      refine ⟨Bool.eq_false_iff.mpr noComma, ?_⟩
      split at known
      · next defined => exact defined.trans known
      · obtain ⟨_, _, same⟩ := Option.map_eq_some_iff.mp known
        cases same
        exact absurd rfl (own _)
  · rintro ⟨noComma, defined⟩
    rw [if_neg (Bool.eq_false_iff.mp noComma), defined]

/-- A definition that schemas are made of is read from the lexemes of its own. -/
theorem exists_defines {lexemes rest : List Lexeme} {read : Definition}
    (known : anyDefinition lexemes = some (read, rest)) (own : ∀ text, read ≠ .foreign text)
    (ends : Boundary rest) :
    ∃ part, lexemes = part ++ rest ∧ Defines read part := by
  obtain ⟨noComma, defined⟩ := (anyDefinition_eq_some own).mp known
  obtain ⟨gap, word, listed, body, after, shape, readBody, bodyLocal, definition_eq⟩ := exists_keyword defined
  obtain ⟨back, rfl, _, again⟩ := bodyLocal _ _ _ readBody
  have reads {front other : List Lexeme} {gap : List Char} (ends' : Boundary other)
      (shape : skipDescription front = ⟨gap, .name word⟩ :: (back ++ other)) :
      definition front = some (read, other) :=
    (definition_eq shape).trans (again other (ends.alike ends'))
  cases lexemes with
  | nil => cases shape
  | cons first others =>
    by_cases description : next isDescription (first :: others) = true
    · rw [skipDescription, if_pos description] at shape
      obtain rfl : others = ⟨gap, .name word⟩ :: (back ++ rest) := shape
      exact ⟨first :: ⟨gap, .name word⟩ :: back, rfl, not_continuing_description description, fun _ other ends' =>
        (anyDefinition_eq_some own).mpr ⟨noComma, reads ends' (if_pos description)⟩⟩
    · rw [skipDescription, if_neg description] at shape
      obtain ⟨rfl, rfl⟩ := List.cons.inj shape
      exact ⟨⟨gap, .name word⟩ :: back, rfl, not_continuing_keyword word listed, fun _ other ends' =>
        anyDefinition_of_definition (reads ends' (if_neg description))⟩

/-- Lexemes that are made of those of definitions. -/
inductive Document : List Lexeme → List Definition → Prop
  | nil : Document [] []
  | cons {part rest : List Lexeme} {read : Definition} {others : List Definition} :
      Defines read part → Document rest others → Document (part ++ rest) (read :: others)

/-- The lexemes with another gap before the first token. -/
def regap (gap : List Char) : List Lexeme → List Lexeme
  | [] => []
  | first :: rest => { first with gap } :: rest

namespace Document

variable {lexemes : List Lexeme} {definitions : List Definition}

theorem boundary (document : Document lexemes definitions) : Boundary lexemes := by
  cases document with
  | nil => exact boundary_nil
  | @cons part _ _ _ defines _ =>
    cases part with
    | nil => exact defines.elim
    | cons first more => exact defines.1

theorem regap (document : Document lexemes definitions) (gap : List Char) :
    Document (regap gap lexemes) definitions := by
  cases document with
  | nil => exact .nil
  | @cons part _ _ _ defines others =>
    cases part with
    | nil => exact defines.elim
    | cons first more =>
      have same : Defines _ ({ first with gap } :: more) := defines
      exact .cons same others

theorem series (document : Document lexemes definitions) :
    Series (fun _ => true) anyDefinition Boundary lexemes definitions := by
  induction document with
  | nil => exact .nil
  | @cons part rest read others defines document ih =>
    cases part with
    | nil => exact defines.elim
    | cons first more => exact .cons (fun rest => defines.2 first.gap rest) (fun _ => ⟨rfl, defines.1⟩) ih

/-- Definitions that are all of what schemas are made of are read from
a document of theirs. -/
theorem of_atMost {count : Nat} (read : atMost count (fun _ => true) anyDefinition lexemes = some (definitions, []))
    (own : ∀ definition ∈ definitions, ∀ text, definition ≠ .foreign text) : Document lexemes definitions := by
  induction count generalizing lexemes definitions with
  | zero =>
    cases read
    exact .nil
  | succ count ih =>
    unfold atMost at read
    split at read
    · obtain ⟨⟨first, middle⟩, readFirst, read⟩ := Option.bind_eq_some_iff.mp read
      obtain ⟨⟨others, last⟩, readOthers, same⟩ := Option.bind_eq_some_iff.mp read
      cases same
      obtain ⟨firstOwn, othersOwn⟩ := List.forall_mem_cons.mp own
      have document := ih readOthers othersOwn
      obtain ⟨part, rfl, defines⟩ := exists_defines readFirst firstOwn document.boundary
      exact .cons defines document
    · cases read
      exact .nil

theorem of_definitions? (read : definitions? lexemes = some definitions)
    (own : ∀ definition ∈ definitions, ∀ text, definition ≠ .foreign text) :
    Document lexemes definitions ∧ definitions ≠ [] := by
  obtain ⟨⟨all, rest⟩, readSome, known⟩ := Option.bind_eq_some_iff.mp read
  obtain ⟨⟨first, middle⟩, readFirst, readOthers⟩ := Option.bind_eq_some_iff.mp readSome
  obtain ⟨⟨others, last⟩, readOthers, same⟩ := Option.bind_eq_some_iff.mp readOthers
  cases same
  dsimp only at known
  split at known
  · next ends =>
    cases known
    obtain rfl := List.isEmpty_iff.mp ends
    obtain ⟨firstOwn, othersOwn⟩ := List.forall_mem_cons.mp own
    have document := of_atMost readOthers othersOwn
    obtain ⟨part, rfl, defines⟩ := exists_defines readFirst firstOwn document.boundary
    exact ⟨.cons defines document, List.cons_ne_nil _ _⟩
  · cases known

theorem definitions? (document : Document lexemes definitions) (present : definitions ≠ []) :
    definitions? lexemes = some definitions :=
  definitions?_of_series document.series present boundary_nil

end Document

end SelectionEngine.Definitions
