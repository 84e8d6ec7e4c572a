import SelectionEngine.Json.Members
import SelectionEngine.Proofs.Entries
import SelectionEngine.Proofs.Json.Text
import SelectionEngine.Request.Encoding

namespace SelectionEngine.Json

open Document

variable {α : Type} {decode : Document → Option α} {value : Value} {a : α}

/-- Whether something is decoded from the text of a value exactly if there is
room for the lists and objects in it. -/
def Decodes (decode : Document → Option α) (value : Value) (a : α) : Prop :=
  ∀ room, decode (ofValueWithin room value) = if value.nesting ≤ room then some a else none

/-- Two parts are decoded together if there is room for both. -/
theorem bind_room {β γ : Type} {first second room : Nat} {b : β} (join : α → β → Option γ) :
    ((if first ≤ room then some a else none).bind fun a => (if second ≤ room then some b else none).bind (join a)) =
      if max first second ≤ room then join a b else none := by
  simp only [Nat.max_le]
  by_cases fits : first ≤ room <;> by_cases alsoFits : second ≤ room <;> simp [fits, alsoFits]

/-- Three parts are decoded together if there is room for all of them. -/
theorem bind_room_both {β γ δ : Type} {first second third room : Nat} {b : β} {c : γ}
    (join : α → β → γ → Option δ) :
    ((if first ≤ room then some a else none).bind fun a => (if second ≤ room then some b else none).bind fun b =>
        (if third ≤ room then some c else none).bind (join a b)) =
      if max first (max second third) ≤ room then join a b c else none := by
  simp only [bind_room]
  by_cases fits : first ≤ room
  · have both : max first (max second third) ≤ room ↔ max second third ≤ room := by
      rw [Nat.max_le, and_iff_right fits]
    simp only [if_pos fits, Option.bind_some, both]
  · have none : ¬ max first (max second third) ≤ room := fun all => fits (Nat.max_le.mp all).1
    rw [if_neg fits, if_neg none, Option.bind_none]

theorem Document.ofValueWithin_ne_null (present : value ≠ .null) (room : Nat) :
    ofValueWithin room value ≠ atom .null := by
  intro same
  cases value with
  | null => exact present rfl
  | list items | object entries =>
    rw [ofValueWithin, within] at same
    split at same <;> cases same
  | _ => cases same

namespace Decodes

/-- What is decoded from the texts of a value is decoded from the value. -/
theorem ofValue (decodes : Decodes decode value a) (represented : value.Represented) :
    decode (Document.ofValue value) = some a := by
  rw [← ofValueWithin_eq represented (Nat.le_refl _), decodes, if_pos (Nat.le_refl _)]

theorem text (s : String) : Decodes string? (.string s) s := fun _ => (if_pos (Nat.zero_le _)).symm

theorem list {items : List Value} (gone : decode .unreadable = none)
    (each : ∀ room, decode (array (ofItemsWithin room items)) =
      if Value.nestingOfItems items ≤ room then some a else none) : Decodes decode (.list items) a := by
  intro room
  cases room with
  | zero => simp [ofValueWithin, within, gone, Value.nesting]
  | succ room => simp [ofValueWithin, within, each, Value.nesting]

theorem object {entries : Object} (gone : decode .unreadable = none)
    (each : ∀ room, decode (.object (ofEntriesWithin room entries)) =
      if Value.nestingOfEntries entries ≤ room then some a else none) : Decodes decode (.object entries) a := by
  intro room
  cases room with
  | zero => simp [ofValueWithin, within, gone, Value.nesting]
  | succ room => simp [ofValueWithin, within, each, Value.nesting]

/-- A value under the one key of an object. -/
theorem tagged {key : String} {decodeBody : Document → Option α} (gone : decode .unreadable = none)
    (tag : ∀ document, decode (.object [(key, document)]) = decodeBody document)
    (body : Decodes decodeBody value a) :
    Decodes decode (.object [(key, value)]) a := by
  refine object gone fun room => ?_
  rw [ofEntriesWithin, ofEntriesWithin, tag, body]
  simp [Value.nestingOfEntries]

theorem map {β : Type} (decodes : Decodes decode value a) (f : α → β) :
    Decodes (fun document => (decode document).map f) value (f a) := by
  intro room
  dsimp only
  rw [decodes]
  split <;> rfl

/-- What may be null is decoded from a value that is not. -/
theorem nullable (decodes : Decodes decode value a) (present : value ≠ .null) :
    Decodes (Document.nullable decode) value (some a) := by
  intro room
  have given : Document.nullable decode (ofValueWithin room value) =
      (decode (ofValueWithin room value)).map some := by
    rw [Document.nullable]
    exact ofValueWithin_ne_null present room
  rw [given, decodes]
  split <;> rfl

/-- The items of a list are decoded if each of them is. -/
theorem items {encode : α → Value} (decodeItems : List Document → Option (List α)) (nil : decodeItems [] = some [])
    (cons : ∀ d ds, decodeItems (d :: ds) = (decode d).bind fun first => (decodeItems ds).bind fun others =>
      some (first :: others)) {as : List α} (each : ∀ a ∈ as, Decodes decode (encode a) a) (room : Nat) :
    decodeItems (ofItemsWithin room (as.map encode)) =
      if Value.nestingOfItems (as.map encode) ≤ room then some as else none := by
  induction as with
  | nil => exact nil
  | cons a as ih =>
    obtain ⟨first, others⟩ := List.forall_mem_cons.mp each
    rw [List.map_cons, ofItemsWithin, cons, first, ih others, Value.nestingOfItems]
    exact bind_room _

/-- The entries of an object are decoded if each of them is. -/
theorem entries {encode : α → Value} (decodeEntries : List (String × Document) → Option (List (String × α)))
    (nil : decodeEntries [] = some [])
    (cons : ∀ key d ds, decodeEntries ((key, d) :: ds) =
      (decode d).bind fun first => (decodeEntries ds).bind fun others => some ((key, first) :: others))
    {as : Entries String α} (each : ∀ entry ∈ as, Decodes decode (encode entry.2) entry.2) (room : Nat) :
    decodeEntries (ofEntriesWithin room (as.map fun entry => (entry.1, encode entry.2))) =
      if Value.nestingOfEntries (as.map fun entry => (entry.1, encode entry.2)) ≤ room then some as else none := by
  induction as with
  | nil => exact nil
  | cons entry as ih =>
    obtain ⟨first, others⟩ := List.forall_mem_cons.mp each
    rw [List.map_cons, ofEntriesWithin, cons, first, ih others, Value.nestingOfEntries]
    exact bind_room _

end Decodes

/-- A value is read from its text exactly if there is room for it. -/
theorem decodes_toValue? (represented : value.Represented) : Decodes toValue? value value := by
  induction represented with
  | null | bool | int | double | string => exact fun _ => (if_pos (Nat.zero_le _)).symm
  | @list items _ ih =>
    refine .list rfl fun room => ?_
    have each := @Decodes.items _ _ id itemValues? rfl (fun _ _ => rfl) items ih room
    rw [List.map_id] at each
    rw [toValue?, each]
    split <;> rfl
  | @object entries distinct _ ih =>
    refine .object rfl fun room => ?_
    have each := @Decodes.entries _ _ id memberValues? rfl (fun _ _ _ => rfl) entries ih room
    rw [show entries.map (fun entry => (entry.1, id entry.2)) = entries from List.map_id _] at each
    rw [toValue?, each]
    split
    · rw [Option.map_some, Entries.ofList_of_distinct distinct]
    · rfl

theorem decodes_object? {entries : Object} (represented : (Value.object entries).Represented) :
    Decodes Document.object? (.object entries) entries := by
  intro room
  rw [Document.object?, decodes_toValue? represented]
  split <;> rfl

namespace Document

theorem keys_ofEntriesWithin (room : Nat) (entries : Object) :
    (ofEntriesWithin room entries).map Prod.fst = entries.keys := by
  induction entries with
  | nil => rfl
  | cons entry entries ih =>
    rw [ofEntriesWithin, List.map_cons, ih]
    rfl

theorem get?_ofEntriesWithin (room : Nat) (key : String) (entries : Object) :
    Entries.get? key (ofEntriesWithin room entries) = (Entries.get? key entries).map (ofValueWithin room) := by
  induction entries with
  | nil => rfl
  | cons entry entries ih =>
    obtain ⟨first, value⟩ := entry
    rw [ofEntriesWithin, Entries.get?, Entries.get?, ih]
    split <;> rfl

/-- The members of a record that is read from its text. -/
theorem members?_ofEntriesWithin {entries : Object} (distinct : entries.Distinct)
    (names : List String) (room : Nat) :
    members? names (.object (ofEntriesWithin room entries)) =
      some ((names.map (Entries.get? · entries)).map (Option.map (ofValueWithin room))) := by
  have once (name : String) : (ofEntriesWithin room entries).countP (fun member => member.1 = name) ≤ 1 := by
    have count := List.nodup_iff_count_le_one.mp distinct name
    rw [← keys_ofEntriesWithin room, List.count, List.countP_map] at count
    simpa [Function.comp_def, beq_eq_decide] using count
  simp [members?, once, get?_ofEntriesWithin, Function.comp_def]

theorem withDefault_some (absent : α) (document : Document) :
    withDefault absent decode (some document) = decode document :=
  rfl

/-- A part of a record that is a text or is left out. -/
theorem withDefault_text (text : Option String) (room : Nat) :
    withDefault none (nullable string?) ((text.map Value.string).map (ofValueWithin room)) = some text := by
  cases text <;> rfl

/-- A part of a record that may be left out where it is the default. -/
theorem withDefault_unless {absent : Bool} {default : α} (decodes : absent = false → Decodes decode value a)
    (same : absent = true → default = a) (key : String) (room : Nat) :
    withDefault default decode ((if absent then none else some value).map (ofValueWithin room)) =
      if Value.nestingOfEntries (entryUnless absent key value) ≤ room then some a else none := by
  cases absent with
  | true => exact (congrArg some (same rfl)).trans (if_pos (Nat.zero_le _)).symm
  | false => simpa [entryUnless, Value.nestingOfEntries, withDefault] using decodes rfl room

/-- A part of a record that is left out where it is empty is decoded as empty. -/
theorem withDefault_unlessEmpty {items : List α} {decode : Document → Option (List α)}
    (decodes : Decodes decode value items) (key : String) (room : Nat) :
    withDefault [] decode ((if items.isEmpty then none else some value).map (ofValueWithin room)) =
      if Value.nestingOfEntries (entryUnless items.isEmpty key value) ≤ room then some items else none :=
  withDefault_unless (fun _ => decodes) (fun empty => (List.isEmpty_iff.mp empty).symm) key room

end Document

end SelectionEngine.Json

namespace SelectionEngine.Value

open Json

theorem nestingOfEntries_append (first second : Object) :
    nestingOfEntries (first ++ second) = max (nestingOfEntries first) (nestingOfEntries second) := by
  induction first with
  | nil => simp [nestingOfEntries]
  | cons entry first ih => rw [List.cons_append, nestingOfEntries, nestingOfEntries, ih, Nat.max_assoc]

theorem get?_textEntry (key other : String) (text : Option String) :
    Entries.get? other (textEntry key text) = if key = other then text.map .string else none := by
  cases text with
  | none => exact (ite_self _).symm
  | some text => rfl

theorem get?_entryUnless (absent : Bool) (key other : String) (value : Value) :
    Entries.get? other (entryUnless absent key value) =
      if key = other then (if absent then none else some value) else none := by
  cases absent with
  | true => exact (ite_self _).symm
  | false => rfl

theorem keys_textEntry (key : String) (text : Option String) : (textEntry key text).keys.Sublist [key] := by
  cases text with
  | none => exact List.nil_sublist _
  | some text => exact .refl _

theorem keys_entryUnless (absent : Bool) (key : String) (value : Value) :
    (entryUnless absent key value).keys.Sublist [key] := by
  cases absent with
  | true => exact List.nil_sublist _
  | false => exact .refl _

@[simp] theorem nestingOfEntries_textEntry (key : String) (text : Option String) :
    nestingOfEntries (textEntry key text) = 0 := by
  cases text <;> rfl

theorem represented_textEntry (key : String) (text : Option String) :
    ∀ entry ∈ textEntry key text, entry.2.Represented := by
  cases text with
  | none => exact nofun
  | some text => exact List.forall_mem_singleton.mpr (.string text)

theorem represented_entryUnless {value : Value} (represented : value.Represented) (absent : Bool) (key : String) :
    ∀ entry ∈ entryUnless absent key value, entry.2.Represented := by
  cases absent with
  | true => exact nofun
  | false => exact List.forall_mem_singleton.mpr represented

theorem represented_single {value : Value} (represented : value.Represented) (key : String) :
    (object [(key, value)]).Represented :=
  .object (List.nodup_singleton key) (List.forall_mem_singleton.mpr represented)

theorem represented_map {α : Type} {encode : α → Value} {items : List α}
    (each : ∀ item ∈ items, (encode item).Represented) : (list (items.map encode)).Represented :=
  .list (List.forall_mem_map.mpr each)

theorem represented_entries {α : Type} {encode : α → Value} {entries : Entries String α}
    (distinct : entries.Distinct) (each : ∀ entry ∈ entries, (encode entry.2).Represented) :
    (object (entries.map fun entry => (entry.1, encode entry.2))).Represented := by
  refine .object ?_ (List.forall_mem_map.mpr each)
  rwa [Entries.Distinct, Entries.keys, List.map_map]

end SelectionEngine.Value
