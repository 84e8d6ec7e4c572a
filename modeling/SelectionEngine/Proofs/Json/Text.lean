import SelectionEngine.Proofs.Json.Atoms

namespace SelectionEngine

open Json Definitions

/-- The JSON values that there are: integers lie between `-2 ^ 63` and
`2 ^ 64 - 1`, and the keys of objects are distinct. -/
inductive Value.Represented : Value → Prop
  | null : Represented .null
  | bool (b : Bool) : Represented (.bool b)
  | int {n : Int} : -0x8000000000000000 ≤ n → n < UInt64.size → Represented (.int n)
  | double (d : Double) : Represented (.double d)
  | string (s : String) : Represented (.string s)
  | list {items : List Value} : (∀ item ∈ items, Represented item) → Represented (.list items)
  | object {entries : Object} : Entries.Distinct entries → (∀ entry ∈ entries, Represented entry.2) →
      Represented (.object entries)

namespace Value

mutual

/-- How many lists and objects are nested in each other. -/
def nesting : Value → Nat
  | null | bool _ | int _ | double _ | string _ => 0
  | list items => nestingOfItems items + 1
  | object entries => nestingOfEntries entries + 1

def nestingOfItems : List Value → Nat
  | [] => 0
  | item :: items => max item.nesting (nestingOfItems items)

def nestingOfEntries : List (String × Value) → Nat
  | [] => 0
  | (_, value) :: rest => max value.nesting (nestingOfEntries rest)

end

theorem nestingOfItems_le {items : List Value} {room : Nat} :
    nestingOfItems items ≤ room ↔ ∀ item ∈ items, item.nesting ≤ room := by
  induction items with
  | nil => simp [nestingOfItems]
  | cons item items ih => rw [nestingOfItems, List.forall_mem_cons, ← ih, Nat.max_le]

theorem nestingOfEntries_le {entries : Object} {room : Nat} :
    nestingOfEntries entries ≤ room ↔ ∀ entry ∈ entries, entry.2.nesting ≤ room := by
  induction entries with
  | nil => simp [nestingOfEntries]
  | cons entry entries ih => rw [nestingOfEntries, List.forall_mem_cons, ← ih, Nat.max_le]

end Value

namespace Json

namespace Document

mutual

/-- The document that the text of a value is read as, where lists and
objects may nest so deep. -/
def ofValueWithin (room : Nat) : Value → Document
  | .list items => within room (array (ofItemsWithin (room - 1) items))
  | .object entries => within room (object (ofEntriesWithin (room - 1) entries))
  | v => atom v

def ofItemsWithin (room : Nat) : List Value → List Document
  | [] => []
  | item :: items => ofValueWithin room item :: ofItemsWithin room items

def ofEntriesWithin (room : Nat) : List (String × Value) → List (String × Document)
  | [] => []
  | (key, value) :: rest => (key, ofValueWithin room value) :: ofEntriesWithin room rest

end

theorem ofItemsWithin_eq {room : Nat} {items : List Value}
    (each : ∀ item ∈ items, ofValueWithin room item = ofValue item) : ofItemsWithin room items = ofItems items := by
  induction items with
  | nil => rfl
  | cons item items ih =>
    obtain ⟨first, others⟩ := List.forall_mem_cons.mp each
    rw [ofItemsWithin, ofItems, first, ih others]

theorem ofEntriesWithin_eq {room : Nat} {entries : Object}
    (each : ∀ entry ∈ entries, ofValueWithin room entry.2 = ofValue entry.2) :
    ofEntriesWithin room entries = ofEntries entries := by
  induction entries with
  | nil => rfl
  | cons entry entries ih =>
    obtain ⟨first, others⟩ := List.forall_mem_cons.mp each
    rw [ofEntriesWithin, ofEntries, first, ih others]

theorem within_of_lt {depth room : Nat} (fits : depth + 1 ≤ room) (container : Document) :
    within room container = container := if_neg (Nat.ne_zero_of_lt fits)

/-- Where there is room enough, the document holds the value. -/
theorem ofValueWithin_eq {value : Value} (represented : value.Represented) {room : Nat}
    (fits : value.nesting ≤ room) :
    ofValueWithin room value = ofValue value := by
  induction represented generalizing room with
  | null | bool | int | double | string => rfl
  | @list items _ ih =>
    rw [Value.nesting] at fits
    have each := Value.nestingOfItems_le.mp (Nat.le_sub_one_of_lt fits)
    rw [ofValueWithin, within_of_lt fits, ofItemsWithin_eq fun item member => ih item member (each item member)]
    rfl
  | @object entries _ _ ih =>
    rw [Value.nesting] at fits
    have each := Value.nestingOfEntries_le.mp (Nat.le_sub_one_of_lt fits)
    rw [ofValueWithin, within_of_lt fits, ofEntriesWithin_eq fun entry member =>
      ih entry member (each entry member)]
    rfl

end Document

/-- A printed value starts with something that is neither a blank nor the end
of a list or an object. -/
theorem compact_head (value : Value) :
    ∃ c rest, compact value = c :: rest ∧ isSpace c = false ∧ c ≠ ']' ∧ c ≠ '\x7d' := by
  have number (numeral : Numeral) : ∃ c rest, numeral.text = c :: rest ∧ isSpace c = false ∧ c ≠ ']' ∧
      c ≠ '\x7d' := by
    obtain ⟨c, rest, shape, rfl | digit⟩ := exists_text numeral
    · exact ⟨'-', rest, shape, by decide⟩
    · refine ⟨c, rest, shape, Bool.eq_false_iff.mpr fun space => ?_, ?_, ?_⟩
      · simp only [isSpace, Bool.or_eq_true, beq_iff_eq] at space
        rcases space with ((rfl | rfl) | rfl) | rfl <;> cases digit
      all_goals
        rintro rfl
        cases digit
  cases value with
  | null => exact ⟨_, _, rfl, by decide⟩
  | bool b => cases b <;> exact ⟨_, _, rfl, by decide⟩
  | int n =>
    have shape := number (.ofInt n)
    rwa [Numeral.text_ofInt] at shape
  | double d =>
    obtain ⟨numeral, text, _⟩ := d.exists_numeral_text
    have shape := number numeral
    rwa [text] at shape
  | string s => exact ⟨_, _, rfl, by decide⟩
  | list items => cases items <;> exact ⟨_, _, rfl, by decide⟩
  | object entries => cases entries <;> exact ⟨_, _, rfl, by decide⟩

theorem skipSpace_cons {c : Char} (solid : isSpace c = false) (rest : List Char) :
    skipSpace (c :: rest) = c :: rest :=
  List.dropWhile_cons_of_neg (by simp [solid])

theorem skipSpace_compact (value : Value) (rest : List Char) :
    skipSpace (compact value ++ rest) = compact value ++ rest := by
  obtain ⟨c, more, shape, solid, _⟩ := compact_head value
  rw [shape, List.cons_append, skipSpace_cons solid]

theorem stops_mark (c : Char) (other : isNamePart c = false ∧ c ≠ '.' ∧ c ≠ '"') (rest : List Char) :
    Stops (c :: rest) := by
  rintro _ ⟨⟩
  exact other

/-- Whether a value is read from its text, whatever stops it. -/
def ReadsBack (value : Value) : Prop :=
  ∀ (fuel room : Nat) {rest : List Char}, 2 * (compact value).length ≤ fuel → Stops rest →
    readDocument fuel room (compact value ++ rest) = some (.ofValueWithin room value, rest)

theorem readItems_compact {first : Value} {items : List Value} (each : ∀ item ∈ first :: items, ReadsBack item)
    {fuel room : Nat} (enough : 2 * (compact first ++ compactItems items).length < fuel) (rest : List Char) :
    readItems fuel room (compact first ++ (compactItems items ++ ']' :: rest)) =
      some (Document.ofItemsWithin room (first :: items), rest) := by
  induction items generalizing first fuel with
  | nil =>
    obtain ⟨fuel, rfl⟩ : ∃ less, fuel = less + 1 := Nat.exists_eq_add_one_of_ne_zero (Nat.ne_zero_of_lt enough)
    rw [compactItems, List.append_nil] at enough
    have read := each first (.head _) fuel room (Nat.le_of_lt_succ enough) (stops_mark ']' (by decide) rest)
    have closing : skipSpace (']' :: rest) = ']' :: rest := skipSpace_cons rfl rest
    simp [readItems, skipSpace_compact, compactItems, read, closing, Document.ofItemsWithin]
  | cons second items ih =>
    obtain ⟨fuel, rfl⟩ : ∃ less, fuel = less + 1 := Nat.exists_eq_add_one_of_ne_zero (Nat.ne_zero_of_lt enough)
    obtain ⟨firstReads, each⟩ := List.forall_mem_cons.mp each
    simp only [compactItems, List.length_append, List.length_cons] at enough
    have others := @ih second each fuel (by rw [List.length_append]; omega)
    have read := firstReads fuel room (by omega)
      (stops_mark ',' (by decide) (compact second ++ (compactItems items ++ ']' :: rest)))
    have comma (more : List Char) : skipSpace (',' :: more) = ',' :: more := skipSpace_cons rfl more
    simp [readItems, skipSpace_compact, compactItems, read, comma, others, Document.ofItemsWithin]

/-- An entry of an object as it is read. -/
def readMember (room : Nat) (entry : String × Value) : Option (List Char) × Document :=
  (some entry.1.toList, .ofValueWithin room entry.2)

/-- An entry is read up to what follows it: the end of the object or a comma
with the other entries. -/
theorem readMembers_entry {entry : String × Value} {fuel room : Nat} {rest last : List Char}
    {others : List (Option (List Char) × Document)} (enough : (quoteString entry.1).length ≤ fuel)
    (read : readDocument fuel room (compact entry.2 ++ rest) = some (.ofValueWithin room entry.2, rest))
    (after : skipSpace rest = '\x7d' :: last ∧ others = [] ∨
      ∃ more, skipSpace rest = ',' :: more ∧ readMembers fuel room more = some (others, last)) :
    readMembers (fuel + 1) room (quoteString entry.1 ++ ':' :: (compact entry.2 ++ rest)) =
      some (readMember room entry :: others, last) := by
  obtain ⟨key, value⟩ := entry
  have short := length_le_escaped key.toList
  simp only [quoteString, quote, List.length_append, List.length_cons] at enough
  have quoted := readString_quoted (show key.toList.length < fuel by omega)
  have opening (more : List Char) : skipSpace ('"' :: more) = '"' :: more := skipSpace_cons rfl more
  have colon (more : List Char) : skipSpace (':' :: more) = ':' :: more := skipSpace_cons rfl more
  obtain ⟨closing, rfl⟩ | ⟨more, comma, others⟩ := after
  · simp [readMembers, quoteString, quote, opening, quoted, colon, skipSpace_compact, read, closing, readMember]
  · simp [readMembers, quoteString, quote, opening, quoted, colon, skipSpace_compact, read, comma,
      others, readMember]

theorem readMembers_compact {first : String × Value} {entries : Object}
    (each : ∀ entry ∈ first :: entries, ReadsBack entry.2) {fuel room : Nat}
    (enough : 2 * (quoteString first.1 ++ ':' :: compact first.2 ++ compactEntries entries).length < fuel)
    (rest : List Char) :
    readMembers fuel room
        (quoteString first.1 ++ ':' :: (compact first.2 ++ (compactEntries entries ++ '\x7d' :: rest))) =
      some ((first :: entries).map (readMember room), rest) := by
  induction entries generalizing first fuel with
  | nil =>
    obtain ⟨fuel, rfl⟩ : ∃ less, fuel = less + 1 := Nat.exists_eq_add_one_of_ne_zero (Nat.ne_zero_of_lt enough)
    simp only [compactEntries, List.length_append, List.length_cons] at enough
    have read := each first (.head _) fuel room (by omega) (stops_mark '\x7d' (by decide) rest)
    have closing : skipSpace ('\x7d' :: rest) = '\x7d' :: rest := skipSpace_cons rfl rest
    rw [compactEntries, List.nil_append]
    exact readMembers_entry (by omega) read (.inl ⟨closing, rfl⟩)
  | cons second entries ih =>
    obtain ⟨fuel, rfl⟩ : ∃ less, fuel = less + 1 := Nat.exists_eq_add_one_of_ne_zero (Nat.ne_zero_of_lt enough)
    obtain ⟨firstReads, each⟩ := List.forall_mem_cons.mp each
    simp only [compactEntries, List.length_append, List.length_cons] at enough
    have others := @ih second each fuel (by simp only [List.length_append, List.length_cons]; omega)
    have read := firstReads fuel room (by omega) (stops_mark ',' (by decide)
      (quoteString second.1 ++ ':' :: (compact second.2 ++ (compactEntries entries ++ '\x7d' :: rest))))
    have shape : compactEntries (second :: entries) ++ '\x7d' :: rest = ',' :: (quoteString second.1 ++ ':' ::
        (compact second.2 ++ (compactEntries entries ++ '\x7d' :: rest))) := by simp [compactEntries]
    have comma (more : List Char) : skipSpace (',' :: more) = ',' :: more := skipSpace_cons rfl more
    rw [shape]
    exact readMembers_entry (by omega) read (.inr ⟨_, comma _, others⟩)

theorem object?_readMembers (room : Nat) (entries : Object) :
    object? (entries.map (readMember room)) = .object (Document.ofEntriesWithin room entries) := by
  have keys {entryOf : Option (List Char) × Document → Option (String × Document)}
      (readable : ∀ key d, entryOf (some key, d) = some (String.ofList key, d)) :
      (entries.map (readMember room)).mapM entryOf = some (Document.ofEntriesWithin room entries) := by
    induction entries with
    | nil => rfl
    | cons entry entries ih => simp [readMember, readable, ih, Document.ofEntriesWithin]
  rw [object?, keys fun _ _ => rfl]

theorem readDocument_items (first : Value) (fuel room : Nat) (rest : List Char) :
    readDocument (fuel + 1) room ('[' :: (compact first ++ rest)) =
      (readItems fuel (room - 1) (compact first ++ rest)).map fun read =>
        (within room (.array read.1), read.2) := by
  obtain ⟨c, more, shape, solid, noEnd, _⟩ := compact_head first
  rw [shape, List.cons_append, readDocument, skipSpace_cons solid]
  split
  · next same => exact absurd (List.cons.inj same).1 noEnd
  · exact Option.map_eq_bind.symm

theorem readDocument_members (key : String) (fuel room : Nat) (rest : List Char) :
    readDocument (fuel + 1) room ('\x7b' :: (quoteString key ++ rest)) =
      (readMembers fuel (room - 1) (quoteString key ++ rest)).map fun read =>
        (within room (object? read.1), read.2) := by
  rw [quoteString, quote, List.cons_append, List.cons_append, readDocument, skipSpace_cons rfl]
  split
  · next same => cases (List.cons.inj same).1
  · exact Option.map_eq_bind.symm

/-- A value is read from its text. -/
theorem readsBack_of_represented {value : Value} (represented : value.Represented) : ReadsBack value := by
  -- No value is printed as nothing, so there is fuel for one step.
  have positive {value : Value} {fuel : Nat} (enough : 2 * (compact value).length ≤ fuel) :
      ∃ less, fuel = less + 1 := by
    obtain ⟨_, _, shape, _⟩ := compact_head value
    rw [shape, List.length_cons] at enough
    exact Nat.exists_eq_add_one_of_ne_zero (by omega)
  induction represented with
  | null =>
    intro fuel room rest enough _
    obtain ⟨fuel, rfl⟩ := positive enough
    rfl
  | bool b =>
    intro fuel room rest enough _
    obtain ⟨fuel, rfl⟩ := positive enough
    cases b <;> rfl
  | @int n lower upper =>
    intro fuel room rest enough stops
    obtain ⟨fuel, rfl⟩ := positive enough
    have read := readDocument_numeral (.ofInt n) stops fuel room
    rw [Numeral.text_ofInt, numeralValue?_ofInt lower upper] at read
    exact read
  | double d =>
    intro fuel room rest enough stops
    obtain ⟨fuel, rfl⟩ := positive enough
    obtain ⟨numeral, text, float, value⟩ := d.exists_numeral_text
    have read := readDocument_numeral numeral stops fuel room
    rw [text, numeralValue?_of_float float, value] at read
    exact read
  | string s =>
    intro fuel room rest enough _
    obtain ⟨fuel, rfl⟩ := positive enough
    have short := length_le_escaped s.toList
    simp only [compact, quoteString, quote, List.length_append, List.length_cons] at enough
    have read := readString_quoted (show s.toList.length < fuel by omega) rest
    simp [compact, quoteString, quote, readDocument, read, ofOption?, Document.ofValueWithin]
  | @list items _ ih =>
    intro fuel room rest enough _
    obtain ⟨fuel, rfl⟩ := positive enough
    cases items with
    | nil => rfl
    | cons first items =>
      simp only [compact, List.length_append, List.length_cons] at enough
      have read := @readItems_compact first items ih fuel (room - 1) (by rw [List.length_append]; omega) rest
      have shape : compact (.list (first :: items)) ++ rest =
          '[' :: (compact first ++ (compactItems items ++ ']' :: rest)) := by simp [compact]
      rw [shape, readDocument_items, read]
      rfl
  | @object entries _ _ ih =>
    intro fuel room rest enough _
    obtain ⟨fuel, rfl⟩ := positive enough
    cases entries with
    | nil => rfl
    | cons first entries =>
      simp only [compact, List.length_append, List.length_cons] at enough
      have read := @readMembers_compact first entries ih fuel (room - 1)
        (by simp only [List.length_append, List.length_cons]; omega) rest
      have shape : compact (.object (first :: entries)) ++ rest = '\x7b' :: (quoteString first.1 ++ ':' ::
          (compact first.2 ++ (compactEntries entries ++ '\x7d' :: rest))) := by simp [compact]
      rw [shape, readDocument_members, read, Option.map_some, object?_readMembers]
      rfl

/-- The text of a value is read as the document that holds the value, down to
the limit of nesting. -/
theorem parse?_toJson {value : Value} (represented : value.Represented) :
    Document.parse? value.toJson = some (.ofValueWithin nestingLimit value) := by
  have read := @readsBack_of_represented value represented (2 * (compact value).length + 2) nestingLimit []
    (by omega) nofun
  have skip := skipSpace_compact value []
  rw [List.append_nil] at read skip
  rw [Document.parse?, Value.toJson, String.toList_ofList]
  have ends : skipSpace [] = [] := rfl
  simp [skip, read, ends]

end Json

end SelectionEngine
