import SelectionEngine.Proofs.Store.History

namespace SelectionEngine

/-- A record that is patched twice is patched once, by the first patch
overwritten by the second. -/
theorem Record.patch_patch {patch : Object} (distinct : Entries.Distinct patch) (record : Record) (later : Object) :
    (record.patch patch).patch later = record.patch (Entries.overwrite patch later) := by
  have fewer : Entries.Distinct (withoutId patch) := distinct.sublist (List.filter_sublist.map Prod.fst)
  have merged : withoutId (Entries.overwrite patch later) = Entries.overwrite (withoutId patch) (withoutId later) :=
    Entries.filter_overwrite (fun key => decide (key ≠ "id")) patch later
  calc (record.patch patch).patch later
      = Entries.overwrite record (Entries.overwrite (withoutId patch) (withoutId later)) :=
        Entries.overwrite_overwrite fewer record (withoutId later)
    _ = record.patch (Entries.overwrite patch later) := congrArg (Entries.overwrite record) merged.symm

namespace Collection

/-- The collection with a record under an id. -/
def put (collection : Collection) (id : String) (record : Record) : Collection :=
  { collection with records := Entries.set id record collection.records }

variable (collection : Collection)

theorem get?_put (id other : String) (record : Record) :
    (collection.put id record).get? other = if id = other then some record else collection.get? other :=
  Entries.get?_set id other record collection.records

theorem put_put (id : String) (first second : Record) :
    (collection.put id first).put id second = collection.put id second := by
  rw [put, put, put, Entries.set_set]

variable {collection}

theorem put_comm {id other : String} (apart : id ≠ other) {old : Record} (found : collection.get? id = some old)
    (record otherRecord : Record) :
    (collection.put other otherRecord).put id record = (collection.put id record).put other otherRecord := by
  have present : Entries.contains collection.records id := Option.isSome_of_eq_some found
  rw [put, put, put, put, Entries.set_comm apart present]

end Collection

namespace Store

variable {store : Store} {handle : Handle} {id other : String} {old : Record}

theorem update_of_present (found : store.get? handle id = some old) (patch : Object) :
    store.update handle id patch =
      (.ok (old.patch patch), store.replace handle ((store.collection handle).put id (old.patch patch))) := by
  have updated : (store.collection handle).update? id patch =
      some (old.patch patch, (store.collection handle).put id (old.patch patch)) := by
    rw [Collection.update?, show (store.collection handle).get? id = some old from found]
    rfl
  simp only [update, updated]

theorem get?_replace (collection : Collection) :
    (store.replace handle collection).get? handle id = collection.get? id := by
  rw [get?, collection_replace, if_pos rfl]

theorem replace_replace (first second : Collection) :
    (store.replace handle first).replace handle second = store.replace handle second := by
  rw [replace, replace, replace, Entries.set_set]

/-- Two updates of a record are one update, by the first patch
overwritten by the second. -/
theorem update_update {patch : Object} (distinct : Entries.Distinct patch) (later : Object) :
    (store.update handle id patch).2.update handle id later =
      store.update handle id (Entries.overwrite patch later) := by
  cases found : store.get? handle id with
  | none => rw [update_of_missing found, update_of_missing found, update_of_missing found]
  | some old =>
    have patched : (store.replace handle ((store.collection handle).put id (old.patch patch))).get? handle id =
        some (old.patch patch) := by
      rw [get?_replace, Collection.get?_put, if_pos rfl]
    rw [update_of_present found, update_of_present patched, update_of_present found, Record.patch_patch distinct,
      collection_replace, if_pos rfl, Collection.put_put, replace_replace]

/-- An update does not change what is found under other ids. -/
theorem get?_update (apart : id ≠ other) (patch : Object) :
    (store.update handle id patch).2.get? handle other = store.get? handle other := by
  cases found : store.get? handle id with
  | none => rw [update_of_missing found]
  | some old =>
    rw [update_of_present found, get?_replace, Collection.get?_put, if_neg apart]
    rfl

/-- What an update answers depends on the record that it finds
and on nothing else. -/
theorem update_fst_congr {after : Store} (same : after.get? handle id = store.get? handle id) (patch : Object) :
    (after.update handle id patch).1 = (store.update handle id patch).1 := by
  cases found : store.get? handle id with
  | none => rw [update_of_missing found, update_of_missing (same.trans found)]
  | some old => rw [update_of_present found, update_of_present (same.trans found)]

/-- Updates of two records leave the same store in either order. -/
theorem update_comm (apart : id ≠ other) (patch otherPatch : Object) :
    ((store.update handle id patch).2.update handle other otherPatch).2 =
      ((store.update handle other otherPatch).2.update handle id patch).2 := by
  have kept : (store.update handle id patch).2.get? handle other = store.get? handle other :=
    get?_update apart patch
  have otherKept : (store.update handle other otherPatch).2.get? handle id = store.get? handle id :=
    get?_update (Ne.symm apart) otherPatch
  cases found : store.get? handle id with
  | none =>
    rw [update_of_missing found, update_of_missing (otherKept.trans found)]
  | some old =>
    cases otherFound : store.get? handle other with
    | none => rw [update_of_missing (kept.trans otherFound), update_of_missing otherFound]
    | some otherOld =>
      rw [update_of_present (kept.trans otherFound), update_of_present found,
        update_of_present (otherKept.trans found), update_of_present otherFound]
      simp only [collection_replace, if_true, replace_replace, Collection.put_comm apart found]

/-- Updates of one record compose: two of them are one update by the first patch
overwritten by the second, where present keys keep their places and new ones go
to the end, and an update that is repeated changes nothing. Updates of two
records commute, and each answers as if it were the only one. Whether the
records exist does not matter. -/
theorem updates_compose_and_commute (store : Store) (handle : Handle) (id : String) {patch later : Object}
    (distinct : Entries.Distinct patch) (laterDistinct : Entries.Distinct later) :
    (store.update handle id patch).2.update handle id later =
        store.update handle id (Entries.overwrite patch later) ∧
      Entries.overwrite patch later =
        (patch.map fun entry => (entry.1, (Entries.get? entry.1 later).getD entry.2)) ++
          later.filter (fun entry => !Entries.contains patch entry.1) ∧
      (store.update handle id patch).2.update handle id patch = store.update handle id patch ∧
      ∀ other, id ≠ other →
        ((store.update handle id patch).2.update handle other later).2 =
            ((store.update handle other later).2.update handle id patch).2 ∧
          ((store.update handle id patch).2.update handle other later).1 = (store.update handle other later).1 ∧
          ((store.update handle other later).2.update handle id patch).1 = (store.update handle id patch).1 := by
  refine ⟨update_update distinct later, Entries.overwrite_eq distinct laterDistinct, ?_, fun other apart => ?_⟩
  · rw [update_update distinct, Entries.overwrite_self distinct]
  · exact ⟨update_comm apart patch later, update_fst_congr (get?_update apart patch) later,
      update_fst_congr (get?_update (Ne.symm apart) later) patch⟩

def notes : Handle := ⟨0, "notes"⟩

/-- A store with two notes, the second of them empty. -/
def noteStore : Store :=
  ((({} : Store).create notes [("title", .string "Moss"), ("text", .string "grows")]).2.create notes []).2

def draft : Object := [("text", .string "green"), ("id", .string "9"), ("tag", .null)]

def revision : Object :=
  [("pinned", .bool true), ("tag", .string "plants"), ("title", .string "Fern"), ("id", .null)]

theorem updates_compose_and_commute_notes :
    Entries.Distinct draft ∧ Entries.Distinct revision ∧
      (noteStore.update notes "1" draft).2.update notes "1" revision =
        noteStore.update notes "1" [("text", .string "green"), ("id", .null), ("tag", .string "plants"),
          ("pinned", .bool true), ("title", .string "Fern")] ∧
      ((noteStore.update notes "1" draft).2.update notes "1" revision).2.list notes =
        [[("id", .string "1"), ("title", .string "Fern"), ("text", .string "green"), ("tag", .string "plants"),
          ("pinned", .bool true)], [("id", .string "2")]] ∧
      ((noteStore.update notes "1" draft).2.update notes "2" revision).2 =
        ((noteStore.update notes "2" revision).2.update notes "1" draft).2 ∧
      ((noteStore.update notes "1" draft).2.update notes "7" revision).1 = .error ⟨"notes", "7"⟩ := by
  have distinct : Entries.Distinct draft := by decide
  have laterDistinct : Entries.Distinct revision := by decide
  obtain ⟨composed, _, _, commuting⟩ := updates_compose_and_commute noteStore notes "1" distinct laterDistinct
  exact ⟨distinct, laterDistinct, composed, congrArg (·.2.list notes) composed, (commuting "2" (by decide)).1,
    (commuting "7" (by decide)).2.1⟩

end Store

end SelectionEngine
