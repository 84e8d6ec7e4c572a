import SelectionEngine.Definitions.Reader
import SelectionEngine.Proofs.Definitions.Tokens
import SelectionEngine.Schema.Layout

namespace SelectionEngine

namespace Definitions

namespace Reader

variable {α : Type} {kind : Token → Bool} {item : Reader α} {follows : List Lexeme → Prop}

@[simp] theorem next_nil : next kind [] = false := rfl

@[simp] theorem next_cons (gap : List Char) (token : Token) (rest : List Lexeme) :
    next kind (⟨gap, token⟩ :: rest) = kind token := rfl

@[simp] theorem mark_cons (c : Char) (gap : List Char) (rest : List Lexeme) :
    mark c (⟨gap, .mark c⟩ :: rest) = some rest := by
  simp [mark, one, isMark]

theorem length_pos_of_next {lexemes : List Lexeme} (starts : next kind (lexemes ++ []) = true) :
    0 < lexemes.length := by
  cases lexemes with
  | nil => cases starts
  | cons lexeme lexemes => exact Nat.succ_pos _

/-- Parts of which a reader reads one item each, whatever may follow a part. -/
inductive Series (kind : Token → Bool) (item : Reader α) (follows : List Lexeme → Prop) :
    List Lexeme → List α → Prop
  | nil : Series kind item follows [] []
  | cons {lexemes more : List Lexeme} {a : α} {others : List α} :
      (∀ rest, follows rest → item (lexemes ++ rest) = some (a, rest)) →
      (∀ rest, next kind (lexemes ++ rest) = true ∧ follows (lexemes ++ rest)) →
      Series kind item follows more others → Series kind item follows (lexemes ++ more) (a :: others)

namespace Series

variable {lexemes : List Lexeme} {items : List α}

theorem length_le (series : Series kind item follows lexemes items) : items.length ≤ lexemes.length := by
  induction series with
  | nil => exact Nat.le_refl 0
  | @cons lexemes more _ _ _ starts _ ih =>
    have positive := length_pos_of_next (starts []).1
    rw [List.length_cons, List.length_append]
    omega

theorem follows_append (series : Series kind item follows lexemes items) {rest : List Lexeme}
    (ends : follows rest) :
    follows (lexemes ++ rest) := by
  cases series with
  | nil => exact ends
  | cons _ starts _ =>
    rw [List.append_assoc]
    exact (starts _).2

theorem atMost (series : Series kind item follows lexemes items) {count : Nat} (enough : items.length ≤ count)
    {rest : List Lexeme} (stops : next kind rest = false) (ends : follows rest) :
    Reader.atMost count kind item (lexemes ++ rest) = some (items, rest) := by
  induction series generalizing count with
  | nil => cases count <;> simp [Reader.atMost, stops]
  | cons reads starts series ih =>
    obtain ⟨count, rfl⟩ : ∃ less, count = less + 1 := Nat.exists_eq_add_one_of_ne_zero (by
      rw [List.length_cons] at enough
      omega)
    have others := ih (Nat.le_of_succ_le_succ enough)
    rw [List.append_assoc, Reader.atMost, if_pos (starts _).1, reads _ (series.follows_append ends)]
    simp [others]

theorem of_map {β : Type} {print : β → List Lexeme} {value : β → α} {parts : List β}
    (reads : ∀ part ∈ parts, ∀ rest, follows rest → item (print part ++ rest) = some (value part, rest))
    (starts : ∀ part ∈ parts, ∀ rest, next kind (print part ++ rest) = true ∧ follows (print part ++ rest)) :
    Series kind item follows (parts.map print).flatten (parts.map value) := by
  induction parts with
  | nil => exact .nil
  | cons part parts ih =>
    obtain ⟨firstReads, reads⟩ := List.forall_mem_cons.mp reads
    obtain ⟨firstStarts, starts⟩ := List.forall_mem_cons.mp starts
    exact .cons firstReads firstStarts (ih reads starts)

/-- All parts are read, up to something that starts no part. -/
theorem many (series : Series kind item follows lexemes items) {rest : List Lexeme} (stops : next kind rest = false)
    (ends : follows rest) : Reader.many kind item (lexemes ++ rest) = some (items, rest) := by
  refine series.atMost ?_ stops ends
  have enough := series.length_le
  rw [List.length_append]
  omega

theorem some1 (series : Series kind item follows lexemes items) (present : items ≠ []) {rest : List Lexeme}
    (stops : next kind rest = false) (ends : follows rest) :
    Reader.some1 kind item (lexemes ++ rest) = some (items, rest) := by
  cases series with
  | nil => exact absurd rfl present
  | cons reads _ series =>
    rw [List.append_assoc, Reader.some1, reads _ (series.follows_append ends)]
    simp [series.many stops ends]

end Series

/-- Whether nothing stands next that would belong to what stands before. -/
def Closed (rest : List Lexeme) : Prop := ∀ c ∈ ['!', '=', '@'], next (isMark c) rest = false

theorem closed_nil : Closed [] := fun _ _ => rfl

theorem closed_name (gap : List Char) (text : String) (rest : List Lexeme) : Closed (⟨gap, .name text⟩ :: rest) :=
  fun _ _ => rfl

theorem closed_mark {c : Char} (other : c ∉ ['!', '=', '@']) (gap : List Char) (rest : List Lexeme) :
    Closed (⟨gap, .mark c⟩ :: rest) := by
  intro mark member
  have different : c ≠ mark := fun same => other (same ▸ member)
  simp [isMark, different]

theorem skipDirectives_closed {rest : List Lexeme} (closed : Closed rest) (value : Reader Literal) :
    skipDirectives value rest = some ((), rest) := by
  have none := closed '@' (by simp)
  have read (directive : Reader Unit) : many (isMark '@') directive rest = some ([], rest) := by
    have series : Series (isMark '@') directive (fun _ => True) [] [] := .nil
    exact series.many none trivial
  rw [skipDirectives, read]
  rfl

end Reader

end Definitions

namespace TypeRef

/-- How deep lists nest in a type. -/
def height : TypeRef → Nat
  | builtIn _ | named _ => 0
  | list inner => inner.height + 1
  | nonNull inner => inner.height

/-- Whether the named types in a type are not the built-in ones, which
are referred to as such. -/
def Proper : TypeRef → Prop
  | builtIn _ => True
  | named name => BuiltIn.ofName? name = none
  | list inner | nonNull inner => inner.Proper

def decideProper : (type : TypeRef) → Decidable type.Proper
  | builtIn _ => isTrue trivial
  | named name => inferInstanceAs (Decidable (BuiltIn.ofName? name = none))
  | list inner | nonNull inner => inner.decideProper

instance (type : TypeRef) : Decidable type.Proper := type.decideProper

end TypeRef

namespace Definitions

open Reader

/-- Reads the mark that makes a type non-null, if it is there. -/
def marked (type : TypeRef) (rest : List Lexeme) : TypeRef × List Lexeme :=
  match one (isMark '!') rest with
  | some rest => (.nonNull type, rest)
  | none => (type, rest)

theorem marked_of_next {rest : List Lexeme} (none : next (isMark '!') rest = false) (type : TypeRef) :
    marked type rest = (type, rest) := by
  cases rest with
  | nil => rfl
  | cons lexeme rest =>
    have other : ¬ isMark '!' lexeme.token = true := by simpa [next] using none
    rw [marked, one, if_neg other]

theorem typeWith_list {inner : Reader TypeRef} {lexemes rest : List Lexeme} {type : TypeRef} (gap : List Char)
    (read : inner (lexemes ++ Layout.close (.mark ']') :: rest) = some (type, Layout.close (.mark ']') :: rest)) :
    typeWith inner (⟨gap, .mark '['⟩ :: lexemes ++ Layout.close (.mark ']') :: rest) =
      some (marked (.list type) rest) := by
  simp only [Layout.close] at read ⊢
  simp [typeWith, isMark, between, read, marked]
  cases one (isMark '!') rest <;> rfl

theorem typeWith_name (inner : Reader TypeRef) (gap : List Char) (name : String) (rest : List Lexeme) :
    typeWith inner (⟨gap, .name name⟩ :: rest) = some (marked (.ofName name) rest) := by
  simp [typeWith, isMark, Reader.name, marked]
  cases one (isMark '!') rest <;> rfl

theorem ofName_builtIn (scalar : BuiltIn) : TypeRef.ofName scalar.name = .builtIn scalar := by
  cases scalar <;> rfl

theorem ofName_named {name : String} (other : BuiltIn.ofName? name = none) : TypeRef.ofName name = .named name := by
  rw [TypeRef.ofName, other]

theorem nestedWrapper?_nonNull {inner : TypeRef} (formed : (TypeRef.nonNull inner).nestedWrapper? = none) :
    inner.isNonNull = false ∧ inner.nestedWrapper? = none := by
  rw [TypeRef.nestedWrapper?] at formed
  split at formed
  · cases formed
  · next bare => exact ⟨Bool.eq_false_iff.mpr bare, formed⟩

theorem nestedWrapper?_list {inner : TypeRef} (formed : (TypeRef.list inner).nestedWrapper? = none) :
    inner.nestedWrapper? = none := by
  rw [TypeRef.nestedWrapper?] at formed
  split at formed
  · cases formed
  · exact formed

theorem read_unmarked {item : Reader TypeRef} {lexemes rest : List Lexeme} {type : TypeRef}
    (read : item lexemes = some (marked type rest)) (none : next (isMark '!') rest = false) :
    item lexemes = some (type, rest) := by
  rw [read, marked_of_next none]

/-- A printed type is read up to a mark that would belong to it. If it is not
non-null itself, that mark is read as well. -/
theorem typeWithin_layout {type : TypeRef} (proper : type.Proper) (formed : type.nestedWrapper? = none) {room : Nat}
    (fits : type.height ≤ room) (gap : List Char) (rest : List Lexeme) :
    (type.isNonNull = false → typeWithin room (Layout.typeRef gap type ++ rest) = some (marked type rest)) ∧
      (next (isMark '!') rest = false → typeWithin room (Layout.typeRef gap type ++ rest) = some (type, rest)) := by
  induction type generalizing room gap rest with
  | builtIn scalar =>
    have read : typeWithin room (Layout.typeRef gap (.builtIn scalar) ++ rest) =
        some (marked (.builtIn scalar) rest) := by
      cases room <;> simp [typeWithin, Layout.typeRef, typeWith_name, ofName_builtIn]
    exact ⟨fun _ => read, read_unmarked read⟩
  | named name =>
    have read : typeWithin room (Layout.typeRef gap (.named name) ++ rest) = some (marked (.named name) rest) := by
      cases room <;> simp [typeWithin, Layout.typeRef, typeWith_name, ofName_named proper]
    exact ⟨fun _ => read, read_unmarked read⟩
  | list inner ih =>
    obtain ⟨room, rfl⟩ : ∃ less, room = less + 1 := Nat.exists_eq_add_one_of_ne_zero (by
      rw [TypeRef.height] at fits
      omega)
    -- the bracket after the items is no mark that would belong to them
    have items := (ih proper (nestedWrapper?_list formed) (Nat.le_of_succ_le_succ fits) []
      (Layout.close (.mark ']') :: rest)).2 rfl
    have read : typeWithin (room + 1) (Layout.typeRef gap (.list inner) ++ rest) =
        some (marked (.list inner) rest) := by
      rw [typeWithin, Layout.typeRef, List.append_assoc]
      exact typeWith_list gap items
    exact ⟨fun _ => read, read_unmarked read⟩
  | nonNull inner ih =>
    -- a type that is not non-null itself takes the mark
    obtain ⟨bare, formed⟩ := nestedWrapper?_nonNull formed
    refine ⟨nofun, fun _ => ?_⟩
    rw [Layout.typeRef, List.append_assoc]
    exact (ih proper formed fits gap (Layout.close (.mark '!') :: rest)).1 bare

theorem typeRef_layout {type : TypeRef} (proper : type.Proper) (formed : type.nestedWrapper? = none)
    (fits : type.height ≤ nestingLimit) (gap : List Char) {rest : List Lexeme}
    (none : next (isMark '!') rest = false) :
    typeRef (Layout.typeRef gap type ++ rest) = some (type, rest) :=
  (typeWithin_layout proper formed fits gap rest).2 none

end Definitions

namespace Value

mutual

/-- A value as the text of a schema has it. -/
def literal : Value → Definitions.Literal
  | null => .null
  | bool b => .bool b
  | int n => .int (toString n).toList
  | double d => .float d.text
  | string s => .string s
  | list items => .list (itemLiterals items)
  | object entries => .object (entryLiterals entries)

def itemLiterals : List Value → List Definitions.Literal
  | [] => []
  | item :: items => item.literal :: itemLiterals items

def entryLiterals : List (String × Value) → List (String × Option Definitions.Literal)
  | [] => []
  | (key, value) :: rest => (key, some value.literal) :: entryLiterals rest

end

mutual

/-- How deep parts lie in a value. -/
def height : Value → Nat
  | null | bool _ | int _ | double _ | string _ => 0
  | list items => itemsHeight items
  | object entries => entriesHeight entries

/-- How deep the parts of items lie in the list of them. -/
def itemsHeight : List Value → Nat
  | [] => 0
  | item :: items => max (item.height + 1) (itemsHeight items)

def entriesHeight : List (String × Value) → Nat
  | [] => 0
  | (_, value) :: rest => max (value.height + 1) (entriesHeight rest)

end

end Value

namespace Definitions

open Reader

theorem exists_constant (gap : List Char) (value : Value) : ∃ token rest,
    Layout.constant gap value = ⟨gap, token⟩ :: rest ∧ token ≠ .mark ']' := by
  cases value with
  | bool b => cases b <;> exact ⟨_, _, rfl, nofun⟩
  | list items => exact ⟨_, _, rfl, by decide⟩
  | object entries => exact ⟨_, _, rfl, by decide⟩
  | _ => exact ⟨_, _, rfl, nofun⟩

/-- The reader of the parts of a literal in which lists and
objects may nest so deep. -/
def partWithin (unknown : Reader Literal) : Nat → Reader Literal
  | 0 => fun _ => none
  | room + 1 => literalWithin unknown room

theorem literalWithin_eq (unknown : Reader Literal) (room : Nat) :
    literalWithin unknown room = literalWith unknown (partWithin unknown room) := by
  cases room <;> rfl

theorem literalWith_list {unknown item : Reader Literal} {lexemes rest : List Lexeme} {items : List Literal}
    (gap : List Char) (series : Series (! isMark ']' ·) item (fun _ => True) lexemes items) :
    literalWith unknown item (⟨gap, .mark '['⟩ :: lexemes ++ Layout.close (.mark ']') :: rest) =
      some (.list items, rest) := by
  have stops : next (! isMark ']' ·) (Layout.close (.mark ']') :: rest) = false := rfl
  have read := series.many stops trivial
  simp only [Layout.close] at read ⊢
  simp [literalWith, read]

theorem literalWith_object {unknown item : Reader Literal} {lexemes rest : List Lexeme}
    {fields : List (String × Option Literal)} (gap : List Char)
    (series : Series isName (literalField item) (fun _ => True) lexemes fields) :
    literalWith unknown item (⟨gap, .mark '\x7b'⟩ :: lexemes ++ Layout.close (.mark '\x7d') :: rest) =
      some (.object fields, rest) := by
  have stops : next isName (Layout.close (.mark '\x7d') :: rest) = false := rfl
  have read := series.many stops trivial
  simp only [Layout.close] at read ⊢
  simp [literalWith, read]

theorem literalField_entry (item : Reader Literal) (gap : List Char) (key : String) (value : Value)
    (rest : List Lexeme) :
    literalField item (⟨gap, .name key⟩ :: Layout.close (.mark ':') :: Layout.constant [' '] value ++ rest) =
      (item (Layout.constant [' '] value ++ rest)).map fun read => ((key, some read.1), read.2) := by
  cases read : item (Layout.constant [' '] value ++ rest) <;>
    simp [literalField, Reader.name, whenNext, afterMark, Layout.close, isMark, read]

mutual

/-- A printed value is read as a literal, whatever follows. -/
theorem literalWithin_layout (unknown : Reader Literal) : (value : Value) → {room : Nat} → value.height ≤ room →
    (gap : List Char) → (rest : List Lexeme) →
    literalWithin unknown room (Layout.constant gap value ++ rest) = some (value.literal, rest)
  | .null, room, _, gap, rest => by
    rw [literalWithin_eq]
    rfl
  | .bool true, room, _, gap, rest => by
    rw [literalWithin_eq]
    rfl
  | .bool false, room, _, gap, rest => by
    rw [literalWithin_eq]
    rfl
  | .int n, room, _, gap, rest => by
    rw [literalWithin_eq]
    rfl
  | .double d, room, _, gap, rest => by
    rw [literalWithin_eq]
    rfl
  | .string s, room, _, gap, rest => by
    simp [literalWithin_eq, Layout.constant, literalWith, unescape_escape, Value.literal]
  | .list items, room, fits, gap, rest => by
    rw [literalWithin_eq, Layout.constant, List.append_assoc]
    exact literalWith_list gap (itemSeries unknown items fits [])
  | .object entries, room, fits, gap, rest => by
    rw [literalWithin_eq, Layout.constant, List.append_assoc]
    exact literalWith_object gap (entrySeries unknown entries fits [])

theorem itemSeries (unknown : Reader Literal) :
    (items : List Value) → {room : Nat} → Value.itemsHeight items ≤ room →
    (gap : List Char) →
    Series (! isMark ']' ·) (partWithin unknown room) (fun _ => True) (Layout.constantItems gap items)
      (Value.itemLiterals items)
  | [], _, _, _ => .nil
  | item :: items, room, fits, gap => by
    rw [Value.itemsHeight] at fits
    obtain ⟨room, rfl⟩ : ∃ less, room = less + 1 := Nat.exists_eq_add_one_of_ne_zero (by omega)
    refine .cons (fun rest _ => literalWithin_layout unknown item (by omega) gap rest) (fun rest => ⟨?_, trivial⟩)
      (itemSeries unknown items (by omega) [',', ' '])
    obtain ⟨token, more, shape, other⟩ := exists_constant gap item
    simp [shape, isMark, other]

theorem entrySeries (unknown : Reader Literal) : (entries : List (String × Value)) → {room : Nat} →
    Value.entriesHeight entries ≤ room → (gap : List Char) →
    Series isName (literalField (partWithin unknown room)) (fun _ => True) (Layout.constantEntries gap entries)
      (Value.entryLiterals entries)
  | [], _, _, _ => .nil
  | (key, value) :: entries, room, fits, gap => by
    rw [Value.entriesHeight] at fits
    obtain ⟨room, rfl⟩ : ∃ less, room = less + 1 := Nat.exists_eq_add_one_of_ne_zero (by omega)
    have first : value.height ≤ room := by omega
    have others : Value.entriesHeight entries ≤ room + 1 := by omega
    have read (rest : List Lexeme) := literalWithin_layout unknown value first [' '] rest
    have series := entrySeries unknown entries others [',', ' ']
    rw [Layout.constantEntries]
    refine .cons (fun rest _ => ?_) (fun rest => ⟨rfl, trivial⟩) series
    rw [literalField_entry, partWithin, read]
    rfl

end

end Definitions

end SelectionEngine
