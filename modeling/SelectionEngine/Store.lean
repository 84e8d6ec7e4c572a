import SelectionEngine.Report

namespace SelectionEngine

/-- A stored entity. Its first entry is its `id`. -/
abbrev Record := Object

/-- No record of the collection has the id. -/
structure NotFoundError where
  collection : String
  id : String
deriving DecidableEq

instance : Reportable NotFoundError where
  message error := s!"no {error.collection} record with id '{error.id}'"
  code _ := "NOT_FOUND"

/-- Sets the entries of a patch other than its `id`. -/
def Record.patch (record : Record) (patch : Object) : Record :=
  Entries.overwrite record (patch.filter fun entry => entry.1 ≠ "id")

/-- Records in the order of their creation. Ids count up and are
not used again. -/
structure Collection where
  lastId : Nat := 0
  records : Entries String Record := []
deriving DecidableEq, Inhabited

namespace Collection

/-- Stores a record under a fresh id, which replaces an `id` of the input. -/
def create (collection : Collection) (input : Object) : Record × Collection :=
  let id := toString (collection.lastId + 1)
  let record := Record.patch [("id", .string id)] input
  (record, ⟨collection.lastId + 1, Entries.set id record collection.records⟩)

def get? (collection : Collection) (id : String) : Option Record := Entries.get? id collection.records

/-- Patches a record, or leaves everything as it is if there is none. -/
def update? (collection : Collection) (id : String) (patch : Object) : Option (Record × Collection) :=
  (collection.get? id).map fun old =>
    let record := old.patch patch
    (record, { collection with records := Entries.set id record collection.records })

def list (collection : Collection) : List Record := Entries.values collection.records

def size (collection : Collection) : Nat := collection.records.length

end Collection

/-- A collection as it was opened: its name, and the number of resets before. -/
structure Handle where
  era : Nat
  name : String
deriving DecidableEq

/-- Named collections, each of them empty until something is created in it. -/
structure Store where
  era : Nat := 0
  collections : Entries Handle Collection := []
deriving DecidableEq, Inhabited

namespace Store

/-- The handle of the collection that the name stands for now. -/
def handle (store : Store) (name : String) : Handle := ⟨store.era, name⟩

def collection (store : Store) (handle : Handle) : Collection :=
  (Entries.get? handle store.collections).getD {}

def replace (store : Store) (handle : Handle) (collection : Collection) : Store :=
  { store with collections := Entries.set handle collection store.collections }

def create (store : Store) (handle : Handle) (input : Object) : Record × Store :=
  let (record, collection) := (store.collection handle).create input
  (record, store.replace handle collection)

def get? (store : Store) (handle : Handle) (id : String) : Option Record :=
  (store.collection handle).get? id

def update (store : Store) (handle : Handle) (id : String) (patch : Object) :
    Except NotFoundError Record × Store :=
  match (store.collection handle).update? id patch with
  | some (record, collection) => (.ok record, store.replace handle collection)
  | none => (.error ⟨handle.name, id⟩, store)

def list (store : Store) (handle : Handle) : List Record := (store.collection handle).list

/-- Starts over with empty collections. Handles that are kept go
on with their records. -/
def reset (store : Store) : Store := { store with era := store.era + 1 }

end Store

end SelectionEngine
