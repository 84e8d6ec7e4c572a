import Mathlib.Data.List.TakeDrop
import SelectionEngine.Definitions.Reader

namespace SelectionEngine

namespace Definitions

/-- Whether the name tokens among lexemes are names. -/
def Named (lexemes : List Lexeme) : Prop := ∀ lexeme ∈ lexemes, ∀ text, lexeme.token = .name text → IsName text

namespace Token

theorem exists_digits_of_readNumber? {text rest : List Char} {token : Token}
    (read : readNumber? text = some (token, rest)) :
    ∃ digits, token = .int digits ∨ token = .float digits := by
  obtain ⟨⟨whole, more⟩, _, read⟩ := Option.bind_eq_some_iff.mp read
  obtain ⟨⟨fraction, more⟩, _, read⟩ := Option.bind_eq_some_iff.mp read
  obtain ⟨⟨exponent, more⟩, _, read⟩ := Option.bind_eq_some_iff.mp read
  dsimp only at read
  split at read
  · cases read
  split at read
  · cases read
    exact ⟨_, .inl rfl⟩
  · cases read
    exact ⟨_, .inr rfl⟩

theorem isName_of_read? {text rest : List Char} {name : String} (read : read? text = some (.name name, rest)) :
    IsName name := by
  unfold read? at read
  split at read
  · cases read
  · obtain ⟨_, _, same⟩ := Option.map_eq_some_iff.mp read
    cases same
  · obtain ⟨⟨body, more⟩, _, same⟩ := Option.bind_eq_some_iff.mp read
    dsimp only at same
    split at same <;> cases same
  · next c rest _ _ _ =>
    split at read
    · cases read
    split at read
    · next start =>
      rw [List.span_eq_takeWhile_dropWhile] at read
      obtain ⟨named, _⟩ := Prod.mk.inj (Option.some.inj read)
      cases named
      exact ⟨c, _, String.toList_ofList, start, List.all_takeWhile⟩
    · obtain ⟨digits, same | same⟩ := exists_digits_of_readNumber? read <;> cases same
  · cases read

end Token

namespace Lexeme

theorem named_of_readAll {fuel : Nat} {text : List Char} {lexemes : List Lexeme}
    (read : readAll fuel text = some lexemes) : Named lexemes := by
  induction fuel generalizing text lexemes with
  | zero => cases read
  | succ fuel ih =>
    unfold readAll at read
    dsimp only at read
    split at read
    · cases read
      exact nofun
    · obtain ⟨⟨token, rest⟩, readToken, read⟩ := Option.bind_eq_some_iff.mp read
      obtain ⟨others, readOthers, same⟩ := Option.bind_eq_some_iff.mp read
      cases same
      refine List.forall_mem_cons.mpr ⟨fun name same => ?_, ih readOthers⟩
      cases same
      exact Token.isName_of_read? readToken

theorem named_of_ofText? {text : List Char} {lexemes : List Lexeme} (read : ofText? text = some lexemes) :
    Named lexemes := named_of_readAll read

end Lexeme

namespace Named

variable {lexemes rest : List Lexeme} {kind : Token → Bool}

theorem tail {lexeme : Lexeme} (named : Named (lexeme :: rest)) : Named rest := (List.forall_mem_cons.mp named).2

theorem drop (named : Named lexemes) (count : Nat) : Named (lexemes.drop count) :=
  fun lexeme member => named lexeme (List.mem_of_mem_drop member)

theorem one (named : Named lexemes) (read : Reader.one kind lexemes = some rest) : Named rest := by
  cases lexemes with
  | nil => cases read
  | cons lexeme lexemes =>
    rw [Reader.one] at read
    split at read
    · cases read
      exact named.tail
    · cases read

theorem skipDescription (named : Named lexemes) : Named (Reader.skipDescription lexemes) := by
  rw [Reader.skipDescription]
  split
  · exact named.drop 1
  · exact named

end Named

namespace Reader

variable {α β : Type} {kind : Token → Bool} {item : Reader α} {good : α → Prop}

/-- Whether everything that a reader reads where name tokens are
names has a property. -/
def Yields (item : Reader α) (good : α → Prop) : Prop :=
  ∀ lexemes a rest, Named lexemes → item lexemes = some (a, rest) → good a ∧ Named rest

theorem yields_none : Yields (fun _ => none) good := by
  intro lexemes a rest _ read
  cases read

theorem yields_name : Yields name IsName := by
  intro lexemes text rest named read
  unfold name at read
  split at read
  · cases read
    exact ⟨named _ (.head _) text rfl, named.tail⟩
  · cases read

namespace Yields

theorem map {better : β → Prop} {f : α → β} (yields : Yields item good) (step : ∀ a, good a → better (f a)) :
    Yields (fun lexemes => (item lexemes).map fun (a, rest) => (f a, rest)) better := by
  intro lexemes b rest named read
  obtain ⟨⟨a, more⟩, readItem, same⟩ := Option.map_eq_some_iff.mp read
  cases same
  obtain ⟨holds, named⟩ := yields _ _ _ named readItem
  exact ⟨step a holds, named⟩

theorem whenNext {absent : α} (yields : Yields item good) (default : good absent) :
    Yields (whenNext kind item absent) good := by
  intro lexemes a rest named read
  unfold Reader.whenNext at read
  split at read
  · exact yields _ _ _ named read
  · cases read
    exact ⟨default, named⟩

theorem optional (yields : Yields item good) :
    Yields (Reader.whenNext kind (fun lexemes => (item lexemes).map fun (a, rest) => (some a, rest)) none)
      fun value => ∀ a, value = some a → good a := by
  refine (yields.map fun a holds other same => ?_).whenNext nofun
  cases same
  exact holds

theorem atMost (yields : Yields item good) (count : Nat) :
    Yields (atMost count kind item) fun items => ∀ a ∈ items, good a := by
  induction count with
  | zero =>
    intro lexemes items rest named read
    cases read
    exact ⟨nofun, named⟩
  | succ count ih =>
    intro lexemes items rest named read
    unfold Reader.atMost at read
    split at read
    · obtain ⟨⟨first, more⟩, readFirst, read⟩ := Option.bind_eq_some_iff.mp read
      obtain ⟨⟨others, more⟩, readOthers, same⟩ := Option.bind_eq_some_iff.mp read
      cases same
      obtain ⟨holds, named⟩ := yields _ _ _ named readFirst
      obtain ⟨each, named⟩ := ih _ _ _ named readOthers
      exact ⟨List.forall_mem_cons.mpr ⟨holds, each⟩, named⟩
    · cases read
      exact ⟨nofun, named⟩

theorem many (yields : Yields item good) : Yields (many kind item) fun items => ∀ a ∈ items, good a :=
  fun lexemes => yields.atMost lexemes.length lexemes

theorem some1 (yields : Yields item good) : Yields (some1 kind item) fun items => ∀ a ∈ items, good a := by
  intro lexemes items rest named read
  obtain ⟨⟨first, more⟩, readFirst, read⟩ := Option.bind_eq_some_iff.mp read
  obtain ⟨⟨others, more⟩, readOthers, same⟩ := Option.bind_eq_some_iff.mp read
  cases same
  obtain ⟨holds, named⟩ := yields _ _ _ named readFirst
  obtain ⟨each, named⟩ := yields.many _ _ _ named readOthers
  exact ⟨List.forall_mem_cons.mpr ⟨holds, each⟩, named⟩

theorem between {opening closing : Char} (yields : Yields item good) :
    Yields (between opening closing item) good := by
  intro lexemes a rest named read
  obtain ⟨more, opened, read⟩ := Option.bind_eq_some_iff.mp read
  obtain ⟨⟨a, more⟩, readItem, read⟩ := Option.bind_eq_some_iff.mp read
  obtain ⟨rest, closed, same⟩ := Option.bind_eq_some_iff.mp read
  cases same
  obtain ⟨holds, named⟩ := yields _ _ _ (named.one opened) readItem
  exact ⟨holds, named.one closed⟩

theorem afterMark {c : Char} (yields : Yields item good) : Yields (afterMark c item) good := by
  intro lexemes a rest named read
  obtain ⟨more, marked, read⟩ := Option.bind_eq_some_iff.mp read
  exact yields _ _ _ (named.one marked) read

theorem afterWord {word : String} (yields : Yields item good) : Yields (afterWord word item) good := by
  intro lexemes a rest named read
  obtain ⟨more, marked, read⟩ := Option.bind_eq_some_iff.mp read
  exact yields _ _ _ (named.one marked) read

theorem separated {c : Char} (yields : Yields item good) :
    Yields (separated c item) fun items => ∀ a ∈ items, good a := by
  intro lexemes items rest named read
  have start : Named (if next (isMark c) lexemes then lexemes.drop 1 else lexemes) := by
    split
    · exact named.drop 1
    · exact named
  obtain ⟨⟨first, more⟩, readFirst, read⟩ := Option.bind_eq_some_iff.mp read
  obtain ⟨⟨others, more⟩, readOthers, same⟩ := Option.bind_eq_some_iff.mp read
  cases same
  obtain ⟨holds, named⟩ := yields _ _ _ start readFirst
  obtain ⟨each, named⟩ := yields.afterMark.many _ _ _ named readOthers
  exact ⟨List.forall_mem_cons.mpr ⟨holds, each⟩, named⟩

end Yields

end Reader

end Definitions

end SelectionEngine
