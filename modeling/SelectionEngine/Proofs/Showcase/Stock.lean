import SelectionEngine.Proofs.Store.History
import SelectionEngine.Showcase

namespace SelectionEngine

theorem get?_withoutId (object : Object) {key : String} (other : key ≠ "id") :
    Entries.get? key (withoutId object) = Entries.get? key object := by
  induction object with
  | nil => rfl
  | cons entry rest ih =>
    by_cases named : entry.1 = "id"
    · have apart : entry.1 ≠ key := named ▸ other.symm
      rw [Entries.get?, if_neg apart, ← ih, withoutId, List.filter_cons_of_neg (by simpa using named), withoutId]
    · rw [withoutId, List.filter_cons_of_pos (by simpa using named), Entries.get?, Entries.get?, ← ih, withoutId]

/-- A created record has the entries of its input, apart from the id. -/
theorem Record.contains_made {input : Object} (distinct : Entries.Distinct input) (id : String) {key : String}
    (other : key ≠ "id") : Entries.contains (Record.made id input []) key = Entries.contains input key := by
  rw [Record.made_of_distinct distinct, Entries.contains, Entries.get?, if_neg other.symm,
    get?_withoutId input other, Entries.contains]

@[simp] theorem Store.handle_replace (store : Store) (handle : Handle) (collection : Collection) (name : String) :
    (store.replace handle collection).handle name = store.handle name := rfl

namespace Showcase

def IsText (value : Value) : Prop := value = .null ∨ ∃ text, value = .string text

def Texts (entries : Object) : Prop := ∀ entry ∈ entries, IsText entry.2

/-- A record of messages or content has an id, and texts. -/
def IsRecord (record : Record) : Prop := ∃ id rest, record = ("id", .string id) :: rest ∧ Texts rest

theorem IsRecord.patch {record : Record} (isRecord : IsRecord record) {patch : Object} (texts : Texts patch) :
    IsRecord (record.patch patch) := by
  obtain ⟨id, rest, rfl, own⟩ := isRecord
  refine ⟨id, _, Record.patch_cons id rest patch, fun entry member => ?_⟩
  rcases Entries.mem_of_mem_overwrite member with inRest | inPatch
  · exact own entry inRest
  · exact texts entry (List.mem_filter.mp inPatch).1

theorem isRecord_made (id : String) {input : Object} (texts : Texts input) :
    IsRecord (Record.made id input []) := by
  have record : Record.patch [("id", .string id)] input = Record.made id input [] := Record.patch_cons id [] input
  exact record ▸ IsRecord.patch ⟨id, [], rfl, nofun⟩ texts

/-- The records that the fields for publishing make. The property that tells
articles from podcasts is there. -/
inductive Publishes : String → Record → Prop
  | article {record} : IsRecord record → Entries.contains record "bodyText" = true →
    Publishes "createArticle" record
  | podcast {record} : IsRecord record → Entries.contains record "bodyText" = false →
      Entries.contains record "audio" = true → Publishes "createPodcast" record

theorem Publishes.isRecord {field : String} {record : Record} (publishes : Publishes field record) :
    IsRecord record := by
  cases publishes <;> assumption

theorem Publishes.field {field : String} {record : Record} (publishes : Publishes field record) :
    field = "createArticle" ∨ field = "createPodcast" := by
  cases publishes with
  | article => exact .inl rfl
  | podcast => exact .inr rfl

theorem Publishes.contains_bodyText {field : String} {record : Record} (publishes : Publishes field record) :
    Entries.contains record "bodyText" = decide (field = "createArticle") := by
  cases publishes with
  | article _ body => rw [body]; rfl
  | podcast _ noBody _ => rw [noBody]; rfl

/-- What was published, each time with the field that did so and its input. -/
abbrev Publications := List (String × Object)

/-- The records of what was published. -/
def published (history : Publications) : List (String × Record) :=
  history.mapIdx fun k entry => (entry.1, Record.made (toString (k + 1)) entry.2 [])

theorem published_concat (history : Publications) (field : String) (input : Object) :
    published (history ++ [(field, input)]) =
      published history ++ [(field, Record.made (toString (history.length + 1)) input [])] :=
  List.mapIdx_concat

theorem mem_published {history : Publications} {field : String} {record : Record} :
    (field, record) ∈ published history ↔
      ∃ k input, history[k]? = some (field, input) ∧ record = Record.made (toString (k + 1)) input [] := by
  rw [published, List.mem_mapIdx]
  constructor
  · rintro ⟨k, inRange, same⟩
    obtain ⟨rfl, rfl⟩ := Prod.mk.inj same
    exact ⟨k, _, List.getElem?_eq_getElem inRange, rfl⟩
  · rintro ⟨k, input, created, rfl⟩
    obtain ⟨inRange, same⟩ := List.getElem?_eq_some_iff.mp created
    exact ⟨k, inRange, by rw [same]⟩

/-- The store has what was published and messages, and nothing that resolvers
could not have put there. -/
structure Stocked (history : Publications) (store : Store) : Prop where
  content : store.collection (store.handle content) = .made (history.map Prod.snd) fun _ => []
  publishes : ∀ entry ∈ published history, Publishes entry.1 entry.2
  messages : ∀ record ∈ store.list (store.handle messages), IsRecord record

theorem stocked_empty : Stocked [] {} := ⟨rfl, nofun, nofun⟩

theorem handle_ne (store : Store) : store.handle messages ≠ store.handle content :=
  fun same => absurd (congrArg Handle.name same) (show messages ≠ content by decide)

namespace Stocked

variable {history : Publications} {store : Store} (stocked : Stocked history store)

include stocked

theorem list_content : store.list (store.handle Showcase.content) = (published history).map Prod.snd := by
  rw [Store.list, stocked.content, Collection.list_made, published]
  refine List.ext_getElem (by simp) fun k _ _ => ?_
  simp

theorem get?_content {id : String} {record : Record} :
    store.get? (store.handle Showcase.content) id = some record ↔
      ∃ field, (field, record) ∈ published history ∧ Entries.get? "id" record = some (.string id) := by
  simp only [Store.get?, stocked.content, Collection.get?_made, List.getElem?_map, Option.map_eq_some_iff]
  constructor
  · rintro ⟨k, _, ⟨entry, created, rfl⟩, rfl, rfl⟩
    exact ⟨entry.1, mem_published.mpr ⟨k, entry.2, created, rfl⟩, rfl⟩
  · rintro ⟨field, listed, named⟩
    obtain ⟨k, input, created, rfl⟩ := mem_published.mp listed
    obtain rfl : toString (k + 1) = id := Value.string.inj (Option.some.inj named)
    exact ⟨k, input, ⟨_, created, rfl⟩, rfl, rfl⟩

/-- Publishing adds one record. -/
theorem publish {field : String} {input : Object} (publishes : ∀ id, Publishes field (Record.made id input [])) :
    (store.create (store.handle Showcase.content) input).1 = Record.made (toString (history.length + 1)) input [] ∧
      Stocked (history ++ [(field, input)]) (store.create (store.handle Showcase.content) input).2 := by
  have created := @Collection.create_made (history.map Prod.snd) (fun _ => []) rfl input
  rw [List.length_map] at created
  simp only [Store.create, stocked.content, created]
  refine ⟨trivial, ?_, ?_, fun record listed => stocked.messages record ?_⟩
  · rw [Store.handle_replace, Store.collection_replace, if_pos rfl, List.map_append]
    rfl
  · rw [published_concat]
    exact List.forall_mem_append.mpr ⟨stocked.publishes, List.forall_mem_singleton.mpr (publishes _)⟩
  · rwa [Store.list, Store.handle_replace, Store.collection_replace, if_neg (handle_ne store).symm] at listed

/-- A change of the messages leaves the content as it is. -/
theorem replace_messages {collection : Collection} (each : ∀ record ∈ collection.list, IsRecord record) :
    Stocked history (store.replace (store.handle Showcase.messages) collection) where
  content := by
    rw [Store.handle_replace, Store.collection_replace, if_neg (handle_ne store), stocked.content]
  publishes := stocked.publishes
  messages record listed := by
    rw [Store.list, Store.handle_replace, Store.collection_replace, if_pos rfl] at listed
    exact each record listed

theorem create_message {input : Object} (texts : Texts input) :
    IsRecord (store.create (store.handle Showcase.messages) input).1 ∧
      Stocked history (store.create (store.handle Showcase.messages) input).2 := by
  have made : IsRecord (store.create (store.handle Showcase.messages) input).1 :=
    IsRecord.patch ⟨_, [], rfl, nofun⟩ texts
  refine ⟨made, stocked.replace_messages fun record listed => ?_⟩
  obtain ⟨entry, member, rfl⟩ := List.mem_map.mp listed
  rcases Entries.mem_of_mem_set member with rfl | earlier
  · exact made
  · exact stocked.messages _ (List.mem_map_of_mem earlier)

theorem update_message {patch : Object} (texts : Texts patch) (id : String) :
    (∀ record, (store.update (store.handle Showcase.messages) id patch).1 = .ok record → IsRecord record) ∧
      (∀ error, (store.update (store.handle Showcase.messages) id patch).1 = .error error →
        error = ⟨Showcase.messages, id⟩) ∧
      Stocked history (store.update (store.handle Showcase.messages) id patch).2 := by
  cases found : store.get? (store.handle Showcase.messages) id with
  | none =>
    rw [Store.update_of_missing found]
    refine ⟨by simp, ?_, stocked⟩
    rintro _ ⟨⟩
    rfl
  | some old =>
    have known : ((store.collection (store.handle Showcase.messages)).get? id) = some old := found
    have patched : IsRecord (old.patch patch) :=
      (stocked.messages old (Entries.mem_values_of_get? known)).patch texts
    simp only [Store.update, Collection.update?, known, Option.map_some]
    refine ⟨?_, by simp, stocked.replace_messages fun record listed => ?_⟩
    · rintro _ ⟨⟩
      exact patched
    · obtain ⟨entry, member, rfl⟩ := List.mem_map.mp listed
      rcases Entries.mem_of_mem_set member with rfl | earlier
      · exact patched
      · exact stocked.messages _ (List.mem_map_of_mem earlier)

end Stocked

end Showcase

end SelectionEngine
