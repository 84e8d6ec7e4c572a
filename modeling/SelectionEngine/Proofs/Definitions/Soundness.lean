import SelectionEngine.Proofs.Definitions.Clauses
import SelectionEngine.Proofs.Definitions.Yields
import SelectionEngine.Proofs.Entries

namespace SelectionEngine

open Definitions Reader

namespace TypeRef

/-- The references to types with names, in which lists nest less than so deep. -/
def Below (limit : Nat) (type : TypeRef) : Prop := IsName type.innerName ∧ type.Proper ∧ type.height < limit

theorem below_ofName {name : String} (named : IsName name) (limit : Nat) : (ofName name).Below (limit + 1) := by
  rw [ofName]
  cases builtIn : BuiltIn.ofName? name with
  | some scalar =>
    obtain rfl := BuiltIn.name_of_ofName? builtIn
    exact ⟨named, trivial, Nat.succ_pos _⟩
  | none => exact ⟨named, builtIn, Nat.succ_pos _⟩

theorem Below.list {limit : Nat} {inner : TypeRef} (below : inner.Below limit) : (list inner).Below (limit + 1) :=
  ⟨below.1, below.2.1, Nat.succ_lt_succ below.2.2⟩

theorem Below.nonNull {limit : Nat} {inner : TypeRef} (below : inner.Below limit) : (nonNull inner).Below limit :=
  below

theorem Below.written {type : TypeRef} (below : type.Below (nestingLimit + 1)) : type.Written :=
  ⟨below.1, below.2.1, Nat.le_of_lt_succ below.2.2⟩

end TypeRef

namespace Definitions

/-- A type stays below a limit with the mark that may follow it. -/
theorem below_of_mark {bare type : TypeRef} {limit : Nat} {more rest : List Lexeme} (below : bare.Below limit)
    (named : Named more)
    (same : (match one (isMark '!') more with
      | some rest => some (.nonNull bare, rest)
      | none => some (bare, more)) = some (type, rest)) : type.Below limit ∧ Named rest := by
  split at same
  · next marked =>
    cases same
    exact ⟨below.nonNull, named.one marked⟩
  · cases same
    exact ⟨below, named⟩

theorem yields_typeWith {inner : Reader TypeRef} {limit : Nat} (yields : Yields inner (TypeRef.Below limit)) :
    Yields (typeWith inner) (TypeRef.Below (limit + 1)) := by
  intro lexemes type rest named read
  unfold typeWith at read
  dsimp only at read
  split at read
  · obtain ⟨⟨bare, more⟩, readList, same⟩ := Option.bind_eq_some_iff.mp read
    obtain ⟨below, named⟩ := (yields.between.map fun _ below => below.list) _ _ _ named readList
    exact below_of_mark below named same
  · obtain ⟨⟨bare, more⟩, readName, same⟩ := Option.bind_eq_some_iff.mp read
    obtain ⟨below, named⟩ := (yields_name.map fun _ named => TypeRef.below_ofName named limit) _ _ _ named readName
    exact below_of_mark below named same

theorem yields_typeWithin (room : Nat) : Yields (typeWithin room) (TypeRef.Below (room + 1)) := by
  induction room with
  | zero => exact yields_typeWith yields_none
  | succ room ih => exact yields_typeWith ih

theorem yields_typeRef : Yields typeRef TypeRef.Written := by
  intro lexemes type rest named read
  obtain ⟨below, named⟩ := yields_typeWithin nestingLimit _ _ _ named read
  exact ⟨below.written, named⟩

namespace Literal

/-- Whether a literal stands for nothing but values that can be written, with
parts that lie less than so deep. -/
def Below (limit : Nat) (literal : Literal) : Prop :=
  ∀ value, literal.toValue = .ok value → value.Written ∧ value.height < limit

theorem below_int (digits : List Char) (limit : Nat) : (int digits).Below (limit + 1) := by
  intro value known
  rw [toValue] at known
  split at known
  · next n found =>
    obtain ⟨lower, upper⟩ := of_decide_eq_true (Option.filter_eq_some_iff.mp found).2
    cases known
    exact ⟨.int lower upper, Nat.succ_pos _⟩
  · cases known

theorem below_float (digits : List Char) (limit : Nat) : (float digits).Below (limit + 1) := by
  intro value known
  rw [toValue] at known
  split at known
  · cases known
    exact ⟨.double _, Nat.succ_pos _⟩
  · cases known
    exact ⟨.null, Nat.succ_pos _⟩

theorem below_string (text : String) (limit : Nat) : (string text).Below (limit + 1) := by
  intro value known
  cases known
  exact ⟨.string _, Nat.succ_pos _⟩

theorem below_wordLiteral (word : String) (limit : Nat) : (wordLiteral word).Below (limit + 1) := by
  rw [wordLiteral]
  split
  · intro value known
    cases known
    exact ⟨.null, Nat.succ_pos _⟩
  split
  · intro value known
    cases known
    exact ⟨.bool _, Nat.succ_pos _⟩
  split
  · intro value known
    cases known
    exact ⟨.bool _, Nat.succ_pos _⟩
  · exact below_string word limit

theorem exists_of_itemValues {items : List Literal} {values : List Value} (known : itemValues items = .ok values) :
    ∀ value ∈ values, ∃ item ∈ items, item.toValue = .ok value := by
  induction items generalizing values with
  | nil =>
    cases known
    exact List.forall_mem_nil _
  | cons item items ih =>
    obtain ⟨first, knownFirst, rest⟩ := bind_eq_ok.mp known
    obtain ⟨others, knownOthers, same⟩ := bind_eq_ok.mp rest
    cases same
    intro value member
    rcases List.mem_cons.mp member with rfl | later
    · exact ⟨item, .head _, knownFirst⟩
    · obtain ⟨item, listed, knownItem⟩ := ih knownOthers value later
      exact ⟨item, .tail _ listed, knownItem⟩

theorem exists_of_fieldValues {fields : List (String × Option Literal)} {entries : List (String × Value)}
    (known : fieldValues fields = .ok entries) :
    ∀ entry ∈ entries, ∃ literal, (entry.1, some literal) ∈ fields ∧ literal.toValue = .ok entry.2 := by
  induction fields generalizing entries with
  | nil =>
    cases known
    exact List.forall_mem_nil _
  | cons field fields ih =>
    obtain ⟨key, default⟩ := field
    cases default with
    | none => cases known
    | some literal =>
      obtain ⟨first, knownFirst, rest⟩ := bind_eq_ok.mp known
      obtain ⟨others, knownOthers, same⟩ := bind_eq_ok.mp rest
      cases same
      intro entry member
      rcases List.mem_cons.mp member with rfl | later
      · exact ⟨literal, .head _, knownFirst⟩
      · obtain ⟨literal, listed, knownLiteral⟩ := ih knownOthers entry later
        exact ⟨literal, .tail _ listed, knownLiteral⟩

end Literal

end Definitions

namespace Value

theorem itemsHeight_le {items : List Value} {limit : Nat} (each : ∀ item ∈ items, item.height < limit) :
    itemsHeight items ≤ limit := by
  induction items with
  | nil => exact Nat.zero_le limit
  | cons item items ih =>
    obtain ⟨first, others⟩ := List.forall_mem_cons.mp each
    exact Nat.max_le.mpr ⟨first, ih others⟩

theorem entriesHeight_le {entries : List (String × Value)} {limit : Nat}
    (each : ∀ entry ∈ entries, entry.2.height < limit) : entriesHeight entries ≤ limit := by
  induction entries with
  | nil => exact Nat.zero_le limit
  | cons entry entries ih =>
    obtain ⟨first, others⟩ := List.forall_mem_cons.mp each
    exact Nat.max_le.mpr ⟨first, ih others⟩

end Value

namespace Definitions

namespace Literal

theorem Below.list {items : List Literal} {limit : Nat} (each : ∀ item ∈ items, item.Below limit) :
    (list items).Below (limit + 1) := by
  intro value known
  rw [toValue] at known
  obtain ⟨values, knownItems, rfl⟩ := map_eq_ok.mp known
  have below : ∀ value ∈ values, value.Written ∧ value.height < limit := by
    intro value member
    obtain ⟨item, listed, knownItem⟩ := exists_of_itemValues knownItems value member
    exact each item listed value knownItem
  have height := Value.itemsHeight_le fun value member => (below value member).2
  exact ⟨.list fun value member => (below value member).1, Nat.lt_succ_of_le height⟩

theorem Below.object {fields : List (String × Option Literal)} {limit : Nat}
    (each : ∀ field ∈ fields, IsName field.1 ∧ ∀ literal, field.2 = some literal → literal.Below limit) :
    (object fields).Below (limit + 1) := by
  intro value known
  rw [toValue] at known
  obtain ⟨entries, knownFields, rfl⟩ := map_eq_ok.mp known
  have below : ∀ entry ∈ Entries.ofList entries, IsName entry.1 ∧ entry.2.Written ∧ entry.2.height < limit := by
    intro entry member
    -- of the fields with one name the last one is kept, so nothing new comes in
    have given : entry ∈ entries := (Entries.mem_of_mem_overwrite member).resolve_left List.not_mem_nil
    obtain ⟨literal, listed, knownLiteral⟩ := exists_of_fieldValues knownFields entry given
    obtain ⟨name, literals⟩ := each _ listed
    exact ⟨name, literals literal rfl entry.2 knownLiteral⟩
  have empty : Entries.Distinct ([] : Object) := List.nodup_nil
  have distinct : (Entries.ofList entries).Distinct := Entries.distinct_overwrite empty entries
  have height := Value.entriesHeight_le fun entry member => (below entry member).2.2
  exact ⟨.object distinct (fun entry member => (below entry member).1) fun entry member => (below entry member).2.1,
    Nat.lt_succ_of_le height⟩

end Literal

theorem yields_literalField {item : Reader Literal} {good : Literal → Prop} (yields : Yields item good) :
    Yields (literalField item) fun field => IsName field.1 ∧ ∀ literal, field.2 = some literal → good literal := by
  intro lexemes field rest named read
  obtain ⟨⟨key, more⟩, readKey, read⟩ := Option.bind_eq_some_iff.mp read
  obtain ⟨⟨value, more⟩, readValue, same⟩ := Option.bind_eq_some_iff.mp read
  cases same
  obtain ⟨name, named⟩ := yields_name _ _ _ named readKey
  obtain ⟨holds, named⟩ := yields.afterMark.optional _ _ _ named readValue
  exact ⟨⟨name, holds⟩, named⟩

theorem yields_literalWith {item : Reader Literal} {limit : Nat} (yields : Yields item (Literal.Below limit)) :
    Yields (literalWith (fun _ => none) item) (Literal.Below (limit + 1)) := by
  intro lexemes literal rest named read
  unfold literalWith at read
  split at read
  · cases read
    exact ⟨Literal.below_int _ _, named.tail⟩
  · cases read
    exact ⟨Literal.below_float _ _, named.tail⟩
  · cases read
    exact ⟨Literal.below_string _ _, named.tail⟩
  · cases read
    exact ⟨Literal.below_string _ _, named.tail⟩
  · cases read
    exact ⟨Literal.below_wordLiteral _ _, named.tail⟩
  · have named := named.tail
    split at read
    · obtain ⟨⟨items, more⟩, readItems, read⟩ := Option.bind_eq_some_iff.mp read
      obtain ⟨rest, closed, same⟩ := Option.bind_eq_some_iff.mp read
      cases same
      obtain ⟨each, named⟩ := yields.many _ _ _ named readItems
      exact ⟨.list each, named.one closed⟩
    split at read
    · obtain ⟨⟨fields, more⟩, readFields, read⟩ := Option.bind_eq_some_iff.mp read
      obtain ⟨rest, closed, same⟩ := Option.bind_eq_some_iff.mp read
      cases same
      obtain ⟨each, named⟩ := (yields_literalField yields).many _ _ _ named readFields
      exact ⟨.object each, named.one closed⟩
    · cases read
  · cases read

theorem yields_constant : Yields constant (Literal.Below (nestingLimit + 1)) := by
  have within (room : Nat) : Yields (literalWithin (fun _ => none) room) (Literal.Below (room + 1)) := by
    induction room with
    | zero => exact yields_literalWith yields_none
    | succ room ih => exact yields_literalWith ih
  exact within nestingLimit

theorem yields_skipArguments {value : Reader Literal} {good : Literal → Prop} (yields : Yields value good) :
    Yields (skipArguments value) fun _ => True := by
  intro lexemes _ rest named read
  obtain ⟨⟨arguments, more⟩, readArguments, same⟩ := Option.bind_eq_some_iff.mp read
  cases same
  exact ⟨trivial, ((yields_literalField yields).some1.between _ _ _ named readArguments).2⟩

theorem yields_skipDirectives {value : Reader Literal} {good : Literal → Prop} (yields : Yields value good) :
    Yields (skipDirectives value) fun _ => True := by
  have directive : Yields (fun lexemes => (afterMark '@' name lexemes).bind fun read =>
      whenNext (isMark '(') (skipArguments value) () read.2) fun _ => True := by
    intro lexemes _ rest named read
    obtain ⟨⟨_, more⟩, readName, read⟩ := Option.bind_eq_some_iff.mp read
    have named := (yields_name.afterMark _ _ _ named readName).2
    exact (yields_skipArguments yields).whenNext trivial _ _ _ named read
  intro lexemes _ rest named read
  obtain ⟨⟨_, more⟩, readDirectives, same⟩ := Option.bind_eq_some_iff.mp read
  cases same
  exact ⟨trivial, (directive.many _ _ _ named readDirectives).2⟩

/-- Whether a clause declares nothing but what can be written. -/
def ArgumentClause.Sound (clause : ArgumentClause) : Prop :=
  ∀ argument, clause.declare = .ok argument → argument.Written

theorem ArgumentClause.sound {clause : ArgumentClause} (name : IsName clause.name) (type : clause.type.Written)
    (default : ∀ literal, clause.default = some literal → literal.Below (nestingLimit + 1)) : clause.Sound := by
  intro argument known
  rw [declare] at known
  split at known
  · cases known
    exact ⟨name, type, nofun⟩
  · next literal given =>
    obtain ⟨value, knownValue, rfl⟩ := map_eq_ok.mp known
    obtain ⟨written, height⟩ := default literal given value knownValue
    refine ⟨name, type, ?_⟩
    rintro _ ⟨⟩
    exact ⟨written, Nat.le_of_lt_succ height⟩

theorem yields_argumentClause : Yields argumentClause ArgumentClause.Sound := by
  intro lexemes clause rest named read
  obtain ⟨⟨name, more⟩, readName, read⟩ := Option.bind_eq_some_iff.mp read
  obtain ⟨⟨type, more⟩, readType, read⟩ := Option.bind_eq_some_iff.mp read
  obtain ⟨⟨default, more⟩, readDefault, read⟩ := Option.bind_eq_some_iff.mp read
  obtain ⟨⟨_, more⟩, readDirectives, same⟩ := Option.bind_eq_some_iff.mp read
  cases same
  obtain ⟨isName, named⟩ := yields_name _ _ _ named.skipDescription readName
  obtain ⟨written, named⟩ := yields_typeRef.afterMark _ _ _ named readType
  obtain ⟨below, named⟩ := yields_constant.afterMark.optional _ _ _ named readDefault
  obtain ⟨_, named⟩ := yields_skipDirectives yields_constant _ _ _ named readDirectives
  exact ⟨ArgumentClause.sound isName written below, named⟩

theorem yields_argumentClauses : Yields argumentClauses fun clauses => ∀ clause ∈ clauses, clause.Sound :=
  yields_argumentClause.some1.between

def FieldClause.Sound (clause : FieldClause) : Prop :=
  ∀ {σ : Type} (field : FieldDef σ), clause.declare = .ok field → field.Written

theorem FieldClause.sound {clause : FieldClause} (name : IsName clause.name) (type : clause.type.Written)
    (arguments : ∀ argument ∈ clause.arguments, argument.Sound) : clause.Sound := by
  intro σ field known
  rw [declare] at known
  obtain ⟨declared, knownArguments, rfl⟩ := map_eq_ok.mp known
  refine ⟨name, type, fun argument member => ?_⟩
  obtain ⟨argumentClause, listed, knownArgument⟩ := exists_of_mapM knownArguments argument member
  exact arguments argumentClause listed argument knownArgument

theorem yields_fieldClause : Yields fieldClause FieldClause.Sound := by
  intro lexemes clause rest named read
  obtain ⟨⟨name, more⟩, readName, read⟩ := Option.bind_eq_some_iff.mp read
  obtain ⟨⟨arguments, more⟩, readArguments, read⟩ := Option.bind_eq_some_iff.mp read
  obtain ⟨⟨type, more⟩, readType, read⟩ := Option.bind_eq_some_iff.mp read
  obtain ⟨⟨_, more⟩, readDirectives, same⟩ := Option.bind_eq_some_iff.mp read
  cases same
  obtain ⟨isName, named⟩ := yields_name _ _ _ named.skipDescription readName
  obtain ⟨sound, named⟩ := (yields_argumentClauses.whenNext (List.forall_mem_nil _)) _ _ _ named readArguments
  obtain ⟨written, named⟩ := yields_typeRef.afterMark _ _ _ named readType
  obtain ⟨_, named⟩ := yields_skipDirectives yields_constant _ _ _ named readDirectives
  exact ⟨FieldClause.sound isName written sound, named⟩

theorem yields_fieldClauses : Yields fieldClauses fun clauses => ∀ clause ∈ clauses, clause.Sound :=
  yields_fieldClause.some1.between.whenNext (List.forall_mem_nil _)

theorem yields_inputClauses : Yields inputClauses fun clauses => ∀ clause ∈ clauses, clause.Sound :=
  yields_argumentClause.some1.between.whenNext (List.forall_mem_nil _)

theorem yields_interfaceNames : Yields interfaceNames fun names => ∀ name ∈ names, IsName name :=
  yields_name.separated.afterWord.whenNext (List.forall_mem_nil _)

def RootClause.Sound (clause : RootClause) : Prop := ∀ name, clause.typeName = some name → IsName name

theorem yields_operationWord : Yields operationWord fun _ => True := by
  intro lexemes kind rest named read
  unfold operationWord at read
  split at read
  · cases read
    exact ⟨trivial, named.tail⟩
  · cases read
    exact ⟨trivial, named.tail⟩
  · cases read
    exact ⟨trivial, named.tail⟩
  · cases read

theorem yields_rootClause : Yields rootClause RootClause.Sound := by
  intro lexemes clause rest named read
  obtain ⟨⟨kind, more⟩, readKind, read⟩ := Option.bind_eq_some_iff.mp read
  obtain ⟨more, colon, read⟩ := Option.bind_eq_some_iff.mp read
  obtain ⟨⟨typeName, more⟩, readName, same⟩ := Option.bind_eq_some_iff.mp read
  cases same
  obtain ⟨_, named⟩ := yields_operationWord _ _ _ named readKind
  exact yields_name.optional _ _ _ (named.one colon) readName

/-- Whether a definition declares nothing but what can be written. -/
def Definition.Sound : Definition → Prop
  | scalar name => IsName name
  | object name interfaces fields =>
    IsName name ∧ (∀ interface ∈ interfaces, IsName interface) ∧ ∀ field ∈ fields, field.Sound
  | interface name fields => IsName name ∧ ∀ field ∈ fields, field.Sound
  | inputObject name fields => IsName name ∧ ∀ field ∈ fields, field.Sound
  | roots clauses => ∀ clause ∈ clauses, clause.Sound
  | directive | foreign _ => True

theorem yields_scalarDefinition : Yields scalarDefinition Definition.Sound := by
  intro lexemes definition rest named read
  obtain ⟨⟨name, more⟩, readName, read⟩ := Option.bind_eq_some_iff.mp read
  obtain ⟨⟨_, more⟩, readDirectives, same⟩ := Option.bind_eq_some_iff.mp read
  cases same
  obtain ⟨isName, named⟩ := yields_name _ _ _ named readName
  exact ⟨isName, (yields_skipDirectives yields_constant _ _ _ named readDirectives).2⟩

theorem yields_objectDefinition : Yields objectDefinition Definition.Sound := by
  intro lexemes definition rest named read
  obtain ⟨⟨name, more⟩, readName, read⟩ := Option.bind_eq_some_iff.mp read
  obtain ⟨⟨interfaces, more⟩, readInterfaces, read⟩ := Option.bind_eq_some_iff.mp read
  obtain ⟨⟨_, more⟩, readDirectives, read⟩ := Option.bind_eq_some_iff.mp read
  obtain ⟨⟨fields, more⟩, readFields, same⟩ := Option.bind_eq_some_iff.mp read
  cases same
  obtain ⟨isName, named⟩ := yields_name _ _ _ named readName
  obtain ⟨interfaceNames, named⟩ := yields_interfaceNames _ _ _ named readInterfaces
  obtain ⟨_, named⟩ := yields_skipDirectives yields_constant _ _ _ named readDirectives
  obtain ⟨sound, named⟩ := yields_fieldClauses _ _ _ named readFields
  exact ⟨⟨isName, interfaceNames, sound⟩, named⟩

theorem yields_interfaceDefinition : Yields interfaceDefinition Definition.Sound := by
  intro lexemes definition rest named read
  obtain ⟨⟨name, more⟩, readName, read⟩ := Option.bind_eq_some_iff.mp read
  obtain ⟨⟨_, more⟩, readInterfaces, read⟩ := Option.bind_eq_some_iff.mp read
  obtain ⟨⟨_, more⟩, readDirectives, read⟩ := Option.bind_eq_some_iff.mp read
  obtain ⟨⟨fields, more⟩, readFields, same⟩ := Option.bind_eq_some_iff.mp read
  cases same
  obtain ⟨isName, named⟩ := yields_name _ _ _ named readName
  obtain ⟨_, named⟩ := yields_interfaceNames _ _ _ named readInterfaces
  obtain ⟨_, named⟩ := yields_skipDirectives yields_constant _ _ _ named readDirectives
  obtain ⟨sound, named⟩ := yields_fieldClauses _ _ _ named readFields
  exact ⟨⟨isName, sound⟩, named⟩

theorem yields_inputDefinition : Yields inputDefinition Definition.Sound := by
  intro lexemes definition rest named read
  obtain ⟨⟨name, more⟩, readName, read⟩ := Option.bind_eq_some_iff.mp read
  obtain ⟨⟨_, more⟩, readDirectives, read⟩ := Option.bind_eq_some_iff.mp read
  obtain ⟨⟨fields, more⟩, readFields, same⟩ := Option.bind_eq_some_iff.mp read
  cases same
  obtain ⟨isName, named⟩ := yields_name _ _ _ named readName
  obtain ⟨_, named⟩ := yields_skipDirectives yields_constant _ _ _ named readDirectives
  obtain ⟨sound, named⟩ := yields_inputClauses _ _ _ named readFields
  exact ⟨⟨isName, sound⟩, named⟩

theorem yields_schemaDefinition : Yields schemaDefinition Definition.Sound := by
  intro lexemes definition rest named read
  obtain ⟨⟨_, more⟩, readDirectives, read⟩ := Option.bind_eq_some_iff.mp read
  obtain ⟨⟨clauses, more⟩, readClauses, same⟩ := Option.bind_eq_some_iff.mp read
  cases same
  obtain ⟨_, named⟩ := yields_skipDirectives yields_constant _ _ _ named readDirectives
  exact (yields_rootClause.some1.between.whenNext (List.forall_mem_nil _)) _ _ _ named readClauses

theorem yields_directiveDefinition : Yields directiveDefinition Definition.Sound := by
  intro lexemes definition rest named read
  obtain ⟨⟨_, more⟩, readName, read⟩ := Option.bind_eq_some_iff.mp read
  obtain ⟨⟨_, more⟩, readArguments, read⟩ := Option.bind_eq_some_iff.mp read
  obtain ⟨⟨_, more⟩, readPlaces, same⟩ := Option.bind_eq_some_iff.mp read
  cases same
  have place : Yields directiveLocation fun _ => True := by
    intro lexemes word rest named read
    obtain ⟨⟨word, more⟩, readWord, read⟩ := Option.bind_eq_some_iff.mp read
    dsimp only at read
    split at read
    · cases read
      exact ⟨trivial, (yields_name _ _ _ named readWord).2⟩
    · cases read
  obtain ⟨_, named⟩ := yields_name.afterMark _ _ _ named readName
  obtain ⟨_, named⟩ := (yields_argumentClauses.whenNext (List.forall_mem_nil _)) _ _ _ named readArguments
  refine ⟨trivial, (place.separated.afterWord _ _ _ ?_ readPlaces).2⟩
  split
  · exact named.drop 1
  · exact named

theorem yields_definition : Yields definition Definition.Sound := by
  intro lexemes read rest named known
  have described := named.skipDescription
  unfold definition at known
  split at known
  · next shape => exact yields_scalarDefinition _ _ _ (shape ▸ described).tail known
  · next shape => exact yields_objectDefinition _ _ _ (shape ▸ described).tail known
  · next shape => exact yields_interfaceDefinition _ _ _ (shape ▸ described).tail known
  · next shape => exact yields_inputDefinition _ _ _ (shape ▸ described).tail known
  · next shape => exact yields_schemaDefinition _ _ _ (shape ▸ described).tail known
  · next shape => exact yields_directiveDefinition _ _ _ (shape ▸ described).tail known
  · cases known

theorem sound_of_anyDefinition {lexemes rest : List Lexeme} {read : Definition} (named : Named lexemes)
    (known : anyDefinition lexemes = some (read, rest)) (own : ∀ text, read ≠ .foreign text) :
    read.Sound ∧ Named rest := by
  unfold anyDefinition at known
  split at known
  · cases known
  · split at known
    · next defined =>
      cases known
      exact yields_definition _ _ _ named defined
    · obtain ⟨_, _, same⟩ := Option.map_eq_some_iff.mp known
      cases same
      exact absurd rfl (own _)

/-- Definitions are sound if none of them is of a kind that schemas are not made
of. What such a definition leaves is not known to be named. -/
theorem sound_of_atMost {count : Nat} {lexemes rest : List Lexeme} {definitions : List Definition}
    (named : Named lexemes) (read : atMost count (fun _ => true) anyDefinition lexemes = some (definitions, rest))
    (own : ∀ definition ∈ definitions, ∀ text, definition ≠ .foreign text) :
    ∀ definition ∈ definitions, definition.Sound := by
  induction count generalizing lexemes definitions with
  | zero =>
    cases read
    exact nofun
  | succ count ih =>
    unfold atMost at read
    split at read
    · obtain ⟨⟨first, more⟩, readFirst, read⟩ := Option.bind_eq_some_iff.mp read
      obtain ⟨⟨others, more⟩, readOthers, same⟩ := Option.bind_eq_some_iff.mp read
      cases same
      obtain ⟨firstOwn, othersOwn⟩ := List.forall_mem_cons.mp own
      obtain ⟨sound, named⟩ := sound_of_anyDefinition named readFirst firstOwn
      exact List.forall_mem_cons.mpr ⟨sound, ih named readOthers othersOwn⟩
    · cases read
      exact nofun

theorem sound_of_ofText? {text : String} {definitions : List Definition}
    (read : Definition.ofText? text = some definitions)
    (own : ∀ definition ∈ definitions, ∀ text, definition ≠ .foreign text) :
    ∀ definition ∈ definitions, definition.Sound := by
  obtain ⟨lexemes, readLexemes, readAll⟩ := Option.bind_eq_some_iff.mp read
  have named := Lexeme.named_of_ofText? readLexemes
  obtain ⟨⟨all, rest⟩, readSome, known⟩ := Option.bind_eq_some_iff.mp readAll
  obtain ⟨⟨first, more⟩, readFirst, readOthers⟩ := Option.bind_eq_some_iff.mp readSome
  obtain ⟨⟨others, rest⟩, readOthers, same⟩ := Option.bind_eq_some_iff.mp readOthers
  cases same
  dsimp only at known
  split at known
  · cases known
    obtain ⟨firstOwn, othersOwn⟩ := List.forall_mem_cons.mp own
    obtain ⟨sound, named⟩ := sound_of_anyDefinition named readFirst firstOwn
    exact List.forall_mem_cons.mpr ⟨sound, sound_of_atMost named readOthers othersOwn⟩
  · cases known

end Definitions

end SelectionEngine
