import SelectionEngine.Proofs.Showcase.Stock

namespace SelectionEngine

/-- Where values say what their keys are, a value is found under its key. -/
theorem Entries.find?_values {α κ : Type} [DecidableEq κ] {named : κ → α → Prop} [∀ key, DecidablePred (named key)]
    {entries : Entries κ α} (each : ∀ entry ∈ entries, ∀ key, named key entry.2 ↔ entry.1 = key) (key : κ) :
    entries.values.find? (named key) = get? key entries := by
  induction entries with
  | nil => rfl
  | cons entry rest ih =>
    obtain ⟨own, others⟩ := List.forall_mem_cons.mp each
    rw [values, List.map_cons, get?]
    by_cases here : entry.1 = key
    · rw [if_pos here, List.find?_cons_of_pos (by simpa using (own key).mpr here)]
    · rw [if_neg here, List.find?_cons_of_neg (by simpa using fun same => here ((own key).mp same))]
      exact ih others

namespace Showcase

/-- Messages with their ids, in the order of their creation. -/
abbrev Messages := List Record

/-- The record says that this is its id. -/
def HasId (id : String) (record : Record) : Prop := Entries.get? "id" record = some (.string id)

instance (id : String) : DecidablePred (HasId id) := fun _ => inferInstanceAs (Decidable (_ = _))

theorem hasId_made {id own : String} {input : Object} {patches : List Object} :
    HasId id (Record.made own input patches) ↔ own = id := by
  simp [HasId, Record.made, Entries.get?]

namespace Messages

variable (messages : Messages) (id : String) (texts : Object)

def find? : Option Record := List.find? (HasId id) messages

/-- The message that comes next. Its id is the next number. -/
def next : Record := ("id", .string (toString (messages.length + 1))) :: texts

def create : Messages := messages ++ [messages.next texts]

/-- Overwrites texts of the message with the id. Nothing happens
if there is none. -/
def update : Messages :=
  messages.map fun message => if HasId id message then Entries.overwrite message texts else message

/-- The collection that has these messages and no others. -/
def collection : Collection where
  lastId := messages.length
  records := messages.mapIdx fun k message => (toString (k + 1), message)

end Messages

/-- Entries of a message apart from its id. -/
structure MessageTexts (texts : Object) : Prop where
  distinct : Entries.Distinct texts
  noId : ∀ entry ∈ texts, entry.1 ≠ "id"

theorem MessageTexts.withoutId {texts : Object} (message : MessageTexts texts) : withoutId texts = texts :=
  List.filter_eq_self.mpr fun entry member => by simpa using message.noId entry member

/-- The messages of the store are these, by the way in which they
were created and changed. -/
def Mirrors (messages : Messages) (store : Store) : Prop :=
  ∃ inputs patches, store.collection (store.handle Showcase.messages) = .made inputs patches ∧
    (∀ n, inputs.length ≤ n → patches (toString (n + 1)) = []) ∧ (Collection.made inputs patches).list = messages

theorem mirrors_empty : Mirrors [] {} := ⟨[], fun _ => [], rfl, fun _ _ => rfl, rfl⟩

namespace Mirrors

variable {messages : Messages} {store : Store} {texts : Object} {id : String} (mirrors : Mirrors messages store)

include mirrors

theorem collection : store.collection (store.handle Showcase.messages) = messages.collection := by
  obtain ⟨inputs, patches, collection, _, rfl⟩ := mirrors
  rw [collection, Messages.collection, Collection.list_made, List.length_mapIdx, List.mapIdx_mapIdx]
  rfl

theorem list : store.list (store.handle Showcase.messages) = messages := by
  obtain ⟨inputs, patches, collection, _, rfl⟩ := mirrors
  rw [Store.list, collection]

theorem get? (id : String) : store.get? (store.handle Showcase.messages) id = messages.find? id := by
  obtain ⟨inputs, patches, collection, _, rfl⟩ := mirrors
  rw [Store.get?, collection]
  refine (Entries.find?_values (fun entry member key => ?_) id).symm
  obtain ⟨k, _, rfl⟩ := List.mem_mapIdx.mp member
  exact hasId_made

theorem create (message : MessageTexts texts) :
    (store.create (store.handle Showcase.messages) texts).1 = messages.next texts ∧
      Mirrors (messages.create texts) (store.create (store.handle Showcase.messages) texts).2 := by
  obtain ⟨inputs, patches, collection, unpatched, rfl⟩ := mirrors
  have length : (Collection.made inputs patches).list.length = inputs.length := by
    rw [Collection.list_made, List.length_mapIdx]
  have record : Record.made (toString (inputs.length + 1)) texts [] =
      Messages.next (Collection.made inputs patches).list texts := by
    rw [Record.made_of_distinct message.distinct, message.withoutId, Messages.next, length]
  simp only [Store.create, collection, Collection.create_made (unpatched _ (Nat.le_refl _)), record]
  refine ⟨trivial, inputs ++ [texts], patches, ?_, fun n inRange => unpatched n ?_, ?_⟩
  · rw [Store.handle_replace, Store.collection_replace, if_pos rfl]
  · rw [List.length_append] at inRange
    omega
  · rw [Messages.create, ← record, Collection.list_made, List.mapIdx_concat, unpatched _ (Nat.le_refl _),
      Collection.list_made]

theorem update (message : MessageTexts texts) {old : Record} (found : messages.find? id = some old) :
    (store.update (store.handle Showcase.messages) id texts).1 = .ok (Entries.overwrite old texts) ∧
      Mirrors (messages.update id texts) (store.update (store.handle Showcase.messages) id texts).2 := by
  rw [← mirrors.get?] at found
  obtain ⟨inputs, patches, collection, unpatched, rfl⟩ := mirrors
  have patch (record : Record) : record.patch texts = Entries.overwrite record texts :=
    congrArg (Entries.overwrite record) message.withoutId
  rw [Store.get?, collection] at found
  simp only [Store.update, collection, Collection.update?_made found, patch]
  let patched (other : String) : List Object := if id = other then patches other ++ [texts] else patches other
  refine ⟨trivial, inputs, patched, ?_, fun n inRange => ?_, ?_⟩
  · rw [Store.handle_replace, Store.collection_replace, if_pos rfl]
  · obtain ⟨k, input, created, rfl, _⟩ := Collection.get?_made.mp found
    have created := (List.getElem?_eq_some_iff.mp created).1
    refine (if_neg fun same => ?_).trans (unpatched n inRange)
    have number : k + 1 = n + 1 := Text.eq_of_toString_eq same
    omega
  · rw [Messages.update, Collection.list_made, Collection.list_made]
    refine List.ext_getElem (by simp) fun k _ _ => ?_
    simp only [List.getElem_mapIdx, List.getElem_map]
    simp only [patched, hasId_made]
    by_cases same : id = toString (k + 1)
    · rw [if_pos same, if_pos same.symm, ← Record.patch_made, patch]
    · rw [if_neg same, if_neg (Ne.symm same)]

theorem update_of_missing (texts : Object) (missing : messages.find? id = none) :
    store.update (store.handle Showcase.messages) id texts = (.error ⟨Showcase.messages, id⟩, store) ∧
      messages.update id texts = messages := by
  refine ⟨Store.update_of_missing ((mirrors.get? id).trans missing) texts, ?_⟩
  refine (List.map_congr_left fun message member => if_neg fun named => ?_).trans (List.map_id messages)
  exact absurd named (by simpa using List.find?_eq_none.mp missing message member)

/-- Content is kept apart from the messages. -/
theorem create_content (input : Object) : Mirrors messages (store.create (store.handle content) input).2 := by
  obtain ⟨inputs, patches, collection, unpatched, same⟩ := mirrors
  refine ⟨inputs, patches, ?_, unpatched, same⟩
  rw [Store.create, Store.handle_replace, Store.collection_replace, if_neg (handle_ne store).symm, collection]

end Mirrors

end Showcase

end SelectionEngine
