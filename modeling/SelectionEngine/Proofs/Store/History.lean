import SelectionEngine.Proofs.Store.Records

namespace SelectionEngine.Store

/-- What a caller asks of a store. -/
inductive Operation where
  | opening (name : String)
  | create (handle : Handle) (input : Object)
  | get (handle : Handle) (id : String)
  | update (handle : Handle) (id : String) (patch : Object)
  | list (handle : Handle)
  | size (handle : Handle)
  | reset

inductive Answer where
  | opened (handle : Handle)
  | created (record : Record)
  | found (record? : Option Record)
  | updated (outcome : Except NotFoundError Record)
  | listed (records : List Record)
  | counted (size : Nat)
  | done

/-- The collection that an operation works on. -/
def Operation.handle? : Operation → Option Handle
  | create handle _ | get handle _ | update handle _ _ | list handle | size handle => some handle
  | opening _ | reset => none

def perform (store : Store) : Operation → Answer × Store
  | .opening name => (.opened (store.handle name), store)
  | .create handle input => (.created (store.create handle input).1, (store.create handle input).2)
  | .get handle id => (.found (store.get? handle id), store)
  | .update handle id patch => (.updated (store.update handle id patch).1, (store.update handle id patch).2)
  | .list handle => (.listed (store.list handle), store)
  | .size handle => (.counted (store.collection handle).size, store)
  | .reset => (.done, store.reset)

/-- Operations with their answers, in the order in which they took effect. -/
abbrev Log := List (Operation × Answer)

def Opened (handle : Handle) (log : Log) : Prop :=
  ∃ name, (Operation.opening name, Answer.opened handle) ∈ log

/-- What callers did with a store, and the store that they left. Whose
operation is the next one is open, but they know no handles other than
those that were opened. -/
inductive History : Log → Store → Prop
  | start : History [] {}
  | next {log store} (operation : Operation) : History log store →
      (∀ handle, operation.handle? = some handle → Opened handle log) →
      History (log ++ [(operation, (store.perform operation).1)]) (store.perform operation).2

def created? (handle : Handle) : Operation × Answer → Option Object
  | (.create own input, _) => if own = handle then some input else none
  | _ => none

def patch? (handle : Handle) (id : String) : Operation × Answer → Option Object
  | (.update own key patch, .updated (.ok _)) => if own = handle ∧ key = id then some patch else none
  | _ => none

/-- What was created in a collection. -/
def created (handle : Handle) (log : Log) : List Object := log.filterMap (created? handle)

/-- How the record of an id in a collection was updated. Updates that did not
find it do not count. -/
def patches (handle : Handle) (log : Log) (id : String) : List Object := log.filterMap (patch? handle id)

/-- What a store does after a log. The records of a collection are told by what
was done with its handle, and an operation on another collection, an opening or
a reset leaves them as they are. -/
structure Follows (log : Log) (store : Store) : Prop where
  answered {before after : Log} {operation : Operation} {answer : Answer} :
    log = before ++ (operation, answer) :: after →
      ∃ earlier, History before earlier ∧ answer = (earlier.perform operation).1
  stored (handle : Handle) : (store.collection handle).records =
    (created handle log).mapIdx fun k input =>
      (toString (k + 1), Record.made (toString (k + 1)) input (patches handle log (toString (k + 1))))
  listed (handle : Handle) : store.list handle =
    (created handle log).mapIdx fun k input =>
      Record.made (toString (k + 1)) input (patches handle log (toString (k + 1)))
  distinct (handle : Handle) : (store.collection handle).records.Distinct
  counted (handle : Handle) : (store.collection handle).size = (created handle log).length
  found {handle : Handle} {id : String} {record : Record} : store.get? handle id = some record ↔
    ∃ k input, (created handle log)[k]? = some input ∧ id = toString (k + 1) ∧
      record = Record.made id input (patches handle log id)
  made (handle : Handle) (input : Object) :
    let id := toString ((created handle log).length + 1)
    (store.create handle input).1 = Record.made id input [] ∧
      (Entries.Distinct input → Record.made id input [] = ("id", .string id) :: withoutId input)
  updated {handle : Handle} {k : Nat} {input : Object} (patch : Object) :
    (created handle log)[k]? = some input →
      let id := toString (k + 1)
      let old := Record.made id input (patches handle log id)
      let merged := Record.made id input (patches handle log id ++ [patch])
      (store.update handle id patch).1 = .ok merged ∧ old.keys <+: merged.keys
  missing {handle : Handle} {id : String} (patch : Object) :
    (∀ k < (created handle log).length, id ≠ toString (k + 1)) →
      store.update handle id patch = (.error ⟨handle.name, id⟩, store)
  apart {operation : Operation} {other : Handle} : operation.handle? ≠ some other →
    (store.perform operation).2.collection other = store.collection other
  /-- Until the next reset a name stands for one collection. -/
  shared {name : String} {handle : Handle} {before after : Log} :
    log = before ++ (.opening name, .opened handle) :: after → (∀ entry ∈ after, entry.1 ≠ .reset) →
      store.handle name = handle
  /-- After a reset it stands for one that nobody used before. -/
  renewed (name : String) :
    let handle := store.reset.handle name
    ¬ Opened handle log ∧ store.reset.collection handle = {} ∧
      ∀ input, (store.reset.create handle input).1 = Record.made "1" input []

section

variable {store : Store} {handle other : Handle}

theorem collection_replace (collection : Collection) :
    (store.replace handle collection).collection other =
      if handle = other then collection else store.collection other := by
  rw [Store.collection, replace, Entries.get?_set]
  split <;> rfl

theorem perform_cases (store : Store) (operation : Operation) :
    (store.perform operation).2 = store ∨
      (∃ own collection, operation.handle? = some own ∧
        (store.perform operation).2 = store.replace own collection) ∨
      operation = .reset ∧ (store.perform operation).2 = store.reset := by
  cases operation with
  | create own input => exact .inr (.inl ⟨own, _, rfl, rfl⟩)
  | update own id patch =>
    simp only [perform, update]
    split
    · exact .inr (.inl ⟨own, _, rfl, rfl⟩)
    · exact .inl rfl
  | reset => exact .inr (.inr ⟨rfl, rfl⟩)
  | opening | get | list | size => exact .inl rfl

theorem collection_perform {operation : Operation} (apart : operation.handle? ≠ some other) :
    (store.perform operation).2.collection other = store.collection other := by
  rcases store.perform_cases operation with same | ⟨own, collection, used, same⟩ | ⟨_, same⟩
  · rw [same]
  · have elsewhere : own ≠ other := fun here => apart (here ▸ used)
    rw [same, collection_replace, if_neg elsewhere]
  · rw [same]
    rfl

theorem era_perform (operation : Operation) : store.era ≤ (store.perform operation).2.era := by
  rcases store.perform_cases operation with same | ⟨own, collection, _, same⟩ | ⟨_, same⟩
  · exact Nat.le_of_eq (congrArg Store.era same.symm)
  · rw [same]
    exact Nat.le_refl store.era
  · rw [same]
    exact Nat.le_succ store.era

theorem handle_perform {operation : Operation} (kept : operation ≠ .reset) (name : String) :
    (store.perform operation).2.handle name = store.handle name := by
  rcases store.perform_cases operation with same | ⟨own, collection, _, same⟩ | ⟨reset, _⟩
  · rw [same]
  · rw [same]
    rfl
  · exact absurd reset kept

theorem update_of_missing {id : String} (missing : store.get? handle id = none) (patch : Object) :
    store.update handle id patch = (.error ⟨handle.name, id⟩, store) := by
  have none : (store.collection handle).update? id patch = none := by
    rw [Collection.update?, show (store.collection handle).get? id = none from missing, Option.map_none]
  simp only [update, none]

end

theorem created_concat (handle : Handle) (log : Log) (entry : Operation × Answer) :
    created handle (log ++ [entry]) = created handle log ++ (created? handle entry).toList := by
  rw [created, List.filterMap_append]
  cases found : created? handle entry <;> simp [created, found]

theorem patches_concat (handle : Handle) (log : Log) (entry : Operation × Answer) (id : String) :
    patches handle (log ++ [entry]) id = patches handle log id ++ (patch? handle id entry).toList := by
  rw [patches, List.filterMap_append]
  cases found : patch? handle id entry <;> simp [patches, found]

theorem created_update {handle own : Handle} {id : String} (log : Log) (patch : Object) (answer : Answer) :
    created handle (log ++ [(.update own id patch, answer)]) = created handle log := by
  simp [created_concat, created?]

theorem patches_update {handle own : Handle} {id : String} (log : Log) (patch : Object) (merged : Record) :
    patches handle (log ++ [(.update own id patch, .updated (.ok merged))]) = fun other =>
      if own = handle ∧ id = other then patches handle log other ++ [patch] else patches handle log other := by
  funext other
  rw [patches_concat, patch?]
  split <;> simp

/-- The collections of a store are what the log makes of them, and only records
that exist have patches. -/
structure Replays (log : Log) (store : Store) : Prop where
  collection (handle : Handle) : store.collection handle = .made (created handle log) (patches handle log)
  unpatched {handle : Handle} {id : String} : (∀ k < (created handle log).length, id ≠ toString (k + 1)) →
    patches handle log id = []

namespace Replays

variable {log : Log} {store after : Store}

/-- An operation that neither creates nor finds a record is not
seen in the collections. -/
theorem keep (replays : Replays log store) {entry : Operation × Answer}
    (unborn : ∀ handle, created? handle entry = none) (unpatched : ∀ handle id, patch? handle id entry = none)
    (same : ∀ handle, after.collection handle = store.collection handle) : Replays (log ++ [entry]) after where
  collection handle := by
    have patched : patches handle (log ++ [entry]) = patches handle log := by
      funext id
      simp [patches_concat, unpatched]
    simpa [created_concat, unborn, patched] using (same handle).trans (replays.collection handle)
  unpatched absent := by
    rw [patches_concat, unpatched, replays.unpatched (by simpa [created_concat, unborn] using absent)]
    rfl

theorem collection_create (replays : Replays log store) (own : Handle) (input : Object) :
    (store.collection own).create input = (Record.made (toString ((created own log).length + 1)) input [],
      .made (created own log ++ [input]) (patches own log)) := by
  rw [replays.collection own]
  refine Collection.create_made (replays.unpatched fun k inRange same => ?_) input
  have number := Nat.succ.inj (Text.eq_of_toString_eq same)
  omega

theorem create (replays : Replays log store) (own : Handle) (input : Object) (answer : Answer) :
    Replays (log ++ [(.create own input, answer)]) (store.create own input).2 where
  collection handle := by
    have patched : patches handle (log ++ [(.create own input, answer)]) = patches handle log := by
      funext id
      simp [patches_concat, patch?]
    simp only [Store.create, replays.collection_create, collection_replace, patched, created_concat, created?]
    split
    · next same => rw [← same]; rfl
    · simpa using replays.collection handle
  unpatched {handle id} absent := by
    rw [patches_concat, replays.unpatched fun k inRange => absent k ?_]
    · rfl
    · rw [created_concat, List.length_append]
      exact Nat.lt_add_right _ inRange

theorem update_of_found (replays : Replays log store) {own : Handle} {id : String} {record : Record}
    (found : store.get? own id = some record) (patch : Object) :
    store.update own id patch = (.ok (record.patch patch), store.replace own (.made (created own log) fun other =>
      if id = other then patches own log other ++ [patch] else patches own log other)) := by
  have merged : (store.collection own).update? id patch = some (record.patch patch,
      .made (created own log) fun other =>
        if id = other then patches own log other ++ [patch] else patches own log other) := by
    rw [Store.get?, replays.collection own] at found
    rw [replays.collection own]
    exact Collection.update?_made found patch
  simp only [Store.update, merged]

theorem update (replays : Replays log store) (own : Handle) (id : String) (patch : Object) :
    Replays (log ++ [(.update own id patch, .updated (store.update own id patch).1)])
      (store.update own id patch).2 := by
  cases found : store.get? own id with
  | none =>
    rw [update_of_missing found]
    exact replays.keep (fun _ => rfl) (fun _ _ => rfl) fun _ => rfl
  | some record =>
    rw [replays.update_of_found found]
    refine ⟨fun handle => ?_, fun {handle other} absent => ?_⟩
    -- the record has one patch more, and so has the log
    · rw [collection_replace, created_update, patches_update]
      split
      · next here => simp only [here, true_and]
      · next elsewhere => simpa only [elsewhere, false_and, if_false] using replays.collection handle
    · rw [created_update] at absent
      -- what is patched was found, so it is no record that is missing
      have other : ¬ (own = handle ∧ id = other) := by
        rintro ⟨rfl, rfl⟩
        rw [Store.get?, replays.collection own, Collection.get?_made_eq_none absent] at found
        cases found
      simpa only [patches_update, if_neg other] using replays.unpatched absent

end Replays

theorem History.replays {log : Log} {store : Store} (history : History log store) : Replays log store := by
  induction history with
  | start => exact ⟨fun _ => rfl, fun _ => rfl⟩
  | next operation _ _ ih =>
    cases operation with
    | create own input => exact ih.create own input _
    | update own id patch => exact ih.update own id patch
    | opening | get | list | size | reset => exact ih.keep (fun _ => rfl) (fun _ _ => rfl) fun _ => rfl

theorem History.era_of_opened {log : Log} {store : Store} (history : History log store) {handle : Handle}
    (opened : Opened handle log) : handle.era ≤ store.era := by
  induction history with
  | start => simp [Opened] at opened
  | @next log store operation _ _ ih =>
    obtain ⟨name, member⟩ := opened
    rcases List.mem_append.mp member with earlier | last
    · exact Nat.le_trans (ih ⟨name, earlier⟩) (era_perform operation)
    · obtain ⟨rfl, same⟩ := Prod.mk.inj (List.mem_singleton.mp last)
      obtain rfl : handle = store.handle name := Answer.opened.inj same
      exact Nat.le_refl _

theorem History.opened_of_used {log : Log} {store : Store} (history : History log store) {handle : Handle}
    {entry : Operation × Answer} (member : entry ∈ log) (used : entry.1.handle? = some handle) :
    Opened handle log := by
  induction history with
  | start => cases member
  | @next log store operation _ known ih =>
    have opened : Opened handle log := by
      rcases List.mem_append.mp member with earlier | last
      · exact ih earlier
      · obtain rfl := List.mem_singleton.mp last
        exact known handle used
    exact opened.imp fun name member => List.mem_append_left _ member

theorem handle?_of_created? {handle : Handle} {entry : Operation × Answer} {input : Object}
    (found : created? handle entry = some input) : entry.1.handle? = some handle := by
  obtain ⟨operation, answer⟩ := entry
  cases operation with
  | create own given =>
    simp only [created?, Option.ite_none_right_eq_some] at found
    exact congrArg some found.1
  | _ => cases found

theorem History.collection_of_unopened {log : Log} {store : Store} (history : History log store) {handle : Handle}
    (unopened : ¬ Opened handle log) : store.collection handle = {} := by
  have none : created handle log = [] := by
    refine List.filterMap_eq_nil_iff.mpr fun entry member => ?_
    cases found : created? handle entry with
    | none => rfl
    | some input => exact absurd (history.opened_of_used member (handle?_of_created? found)) unopened
  rw [history.replays.collection handle, none]
  rfl

/-- Each operation was answered by the store of its time, and a name that stood
for a collection then still does unless the store was reset. -/
theorem History.split {log : Log} {store : Store} (history : History log store) {before after : Log}
    {entry : Operation × Answer} (parts : log = before ++ entry :: after) :
    ∃ earlier, History before earlier ∧ entry.2 = (earlier.perform entry.1).1 ∧
      ((∀ later ∈ after, later.1 ≠ .reset) →
        ∀ name, store.handle name = (earlier.perform entry.1).2.handle name) := by
  -- the entry is the last one of the log, or the last one
  -- belongs to what came after
  induction history generalizing after with
  | start => simp at parts
  | @next log store operation history _ ih =>
    rcases List.eq_nil_or_concat after with rfl | ⟨sooner, last, rfl⟩
    · obtain ⟨rfl, same⟩ := List.append_inj' parts rfl
      obtain rfl := List.singleton_inj.mp same
      exact ⟨store, history, rfl, fun _ _ => rfl⟩
    · have shape : before ++ entry :: sooner.concat last = (before ++ entry :: sooner) ++ [last] := by simp
      obtain ⟨front, same⟩ := List.append_inj' (parts.trans shape) rfl
      obtain rfl := List.singleton_inj.mp same
      obtain ⟨earlier, past, answer, kept⟩ := ih front
      refine ⟨earlier, past, answer, fun notReset name => ?_⟩
      have last : operation ≠ .reset := notReset (operation, (store.perform operation).1) (by simp)
      rw [handle_perform last]
      exact kept (fun later member => notReset later (by simp [member])) name

/-- A store does what the log of all its callers says. -/
theorem follows_of_history {log : Log} {store : Store} (history : History log store) : Follows log store where
  answered parts := by
    obtain ⟨earlier, past, answer, _⟩ := history.split parts
    exact ⟨earlier, past, answer⟩
  stored handle := by
    rw [history.replays.collection handle]
    rfl
  listed handle := by
    rw [list, history.replays.collection handle, Collection.list_made]
  distinct handle := by
    rw [history.replays.collection handle]
    exact Collection.distinct_made
  counted handle := by
    rw [history.replays.collection handle]
    exact List.length_mapIdx
  found := by
    intro handle id record
    rw [get?, history.replays.collection handle, Collection.get?_made]
  made handle input := by
    refine ⟨?_, fun distinct => Record.made_of_distinct distinct _⟩
    rw [create, history.replays.collection_create handle input]
  updated := by
    intro handle k input patch born
    have found : store.get? handle (toString (k + 1)) =
        some (Record.made (toString (k + 1)) input (patches handle log (toString (k + 1)))) := by
      rw [get?, history.replays.collection handle]
      exact Collection.get?_made.mpr ⟨k, input, born, rfl, rfl⟩
    refine ⟨?_, Record.prefix_keys_made _ _ _ patch⟩
    rw [history.replays.update_of_found found, Record.patch_made]
  missing := by
    intro handle id patch absent
    refine update_of_missing ?_ patch
    rw [get?, history.replays.collection handle, Collection.get?_made_eq_none absent]
  apart := collection_perform
  shared := by
    intro name handle before after parts notReset
    obtain ⟨earlier, _, answer, kept⟩ := history.split parts
    rw [kept notReset, Answer.opened.inj answer]
    rfl
  renewed name := by
    have unopened : ¬ Opened (store.reset.handle name) log := fun opened =>
      Nat.not_succ_le_self store.era (history.era_of_opened opened)
    have empty : store.reset.collection (store.reset.handle name) = {} := history.collection_of_unopened unopened
    refine ⟨unopened, empty, fun input => ?_⟩
    rw [create, empty]
    exact Record.patch_cons "1" [] input

/-- A name that is opened, written to and opened again after a reset, while the
first handle is kept. -/
def noteOperations : List Operation :=
  let kept : Handle := ⟨0, "notes"⟩
  let new : Handle := ⟨1, "notes"⟩
  [.opening "notes", .create kept [("id", .string "7"), ("text", .string "one")], .create kept [],
    .update kept "1" [("tag", .null), ("id", .string "2"), ("text", .string "two")], .update kept "7" [],
    .reset, .opening "notes", .create new [("text", .string "three")], .create kept []]

/-- The log and the store after operations. -/
def performAll (operations : List Operation) : Log × Store :=
  operations.foldl (fun past operation =>
    (past.1 ++ [(operation, (past.2.perform operation).1)], (past.2.perform operation).2)) ([], {})

theorem history_notes : History (performAll noteOperations).1 (performAll noteOperations).2 := by
  have opened : History _ _ := .next (.opening "notes") .start nofun
  have written : History _ _ :=
    .next (.create ⟨0, "notes"⟩ [("id", .string "7"), ("text", .string "one")]) opened fun
      | _, rfl => ⟨"notes", .head _⟩
  have again : History _ _ := .next (.create ⟨0, "notes"⟩ []) written fun
    | _, rfl => ⟨"notes", .head _⟩
  have changed : History _ _ :=
    .next (.update ⟨0, "notes"⟩ "1" [("tag", .null), ("id", .string "2"), ("text", .string "two")]) again fun
      | _, rfl => ⟨"notes", .head _⟩
  have missed : History _ _ := .next (.update ⟨0, "notes"⟩ "7" []) changed fun
    | _, rfl => ⟨"notes", .head _⟩
  have renewed : History _ _ := .next (.opening "notes") (.next .reset missed nofun) nofun
  have new : History _ _ := .next (.create ⟨1, "notes"⟩ [("text", .string "three")]) renewed fun
    | _, rfl => ⟨"notes", .tail _ (.tail _ (.tail _ (.tail _ (.tail _ (.tail _ (.head _))))))⟩
  exact .next (.create ⟨0, "notes"⟩ []) new fun
    | _, rfl => ⟨"notes", .head _⟩

theorem follows_of_history_notes :
    let past := performAll noteOperations
    History past.1 past.2 ∧ Follows past.1 past.2 ∧
      past.2.list ⟨0, "notes"⟩ = [
        [("id", .string "1"), ("text", .string "two"), ("tag", .null)], [("id", .string "2")],
        [("id", .string "3")]] ∧
      past.2.list ⟨1, "notes"⟩ = [[("id", .string "1"), ("text", .string "three")]] := by
  exact ⟨history_notes, follows_of_history history_notes, rfl, rfl⟩

end SelectionEngine.Store
